import RtxKernel.Kernel.Mailed

/-!
# A group of processes and the others

The processes of a group `g` are followed in a system where the others, and the interrupts, do what they like
(`Kernel.Outside`), except that they leave the blocks of the group alone. What a step leaves alone is kept
(`Preserves`), and what it brings into the mailbox for a process is listed in `Effect.mailTo`.
-/

namespace RtxKernel

/-- The envelopes that come into the mailbox with an operation, apart from those of the UART interrupt -/
def Op.arrivals : Op → Reply → List Nat
  | .send _ e, .code c => if c = 0 then [e] else []
  | .timer, .moved es => es
  | _, _ => []

lemma Op.arrivals_of_isQuiet {op : Op} {reply : Reply} (h : op.isQuiet reply = true) :
    op.arrivals reply = [] := by
  cases op with
  | send pid e =>
    cases reply with
    | code c =>
      have hc : c ≠ 0 := by simpa [Op.isQuiet] using h
      rw [arrivals, if_neg hc]
    | _ => rfl
  | timer => cases h
  | _ => rfl

/-- The operation works at the block at `x`, or at none. -/
def Op.WorksAt (x : Option Nat) : Op → Prop
  | .store y _ => ∃ e, x = some e ∧ e ≤ y ∧ y < e + memBlockSize
  | .send _ e | .delayedSend _ e _ | .release e => x = some e
  | .request | .receive | .releaseProcessor => True
  | _ => False

namespace Kernel

/-- The operation neither sends nor writes into a block of the group. -/
def SparesBlocks (k : Kernel) (g : List UInt32) : Op → Prop
  | .send _ e | .delayedSend _ e _ =>
    ∀ b < memBlockCount, (k.pool.block b).startBlock = e → (k.pool.block b).pid ∉ g
  | .store x _ => ∀ b < memBlockCount, (k.pool.block b).startBlock ≤ x →
      x < (k.pool.block b).startBlock + memBlockSize → (k.pool.block b).pid ∉ g
  | _ => True

instance (k : Kernel) (g : List UInt32) : (op : Op) → Decidable (k.SparesBlocks g op)
  | .send _ e | .delayedSend _ e _ => inferInstanceAs (Decidable
      (∀ b < memBlockCount, (k.pool.block b).startBlock = e → (k.pool.block b).pid ∉ g))
  | .store x _ => inferInstanceAs (Decidable (∀ b < memBlockCount, (k.pool.block b).startBlock ≤ x →
      x < (k.pool.block b).startBlock + memBlockSize → (k.pool.block b).pid ∉ g))
  | .releaseProcessor | .block _ | .unblockByPid _ _ | .unblockByType _ | .setPriority _ _
  | .receive | .request | .release _ | .terminate | .timer | .uart _ => .isTrue trivial

/-- What an interrupt or a process that is not of the group may do -/
def Outside (k : Kernel) (g : List UInt32) (op : Op) : Prop :=
  (op.isInterrupt = true ∨ k.currentPid ∉ g) ∧ k.Proper op ∧ k.SparesBlocks g op

instance (k : Kernel) (g : List UInt32) (op : Op) : Decidable (k.Outside g op) :=
  inferInstanceAs (Decidable ((op.isInterrupt = true ∨ k.currentPid ∉ g) ∧ k.Proper op ∧
    k.SparesBlocks g op))

end Kernel

namespace Spec.Kernel

variable {a b : Kernel} {base : Nat} {r : PcbPtr} {op : Op} {reply : Reply} {c : BlockPtr} {e : Nat}
  {p : UInt32} {g : List UInt32}

structure Outside (a : Kernel) (g : List UInt32) (op : Op) : Prop where
  caller : op.isInterrupt = true ∨ a.sched.currentPid ∉ g
  alone : ∀ e p c, a.OwnedBy e p c → p ∈ g → a.LeavesAlone c op

/-! ### What is kept -/

/-- The receivers of the messages stay as they are, and the envelopes `S` of their owners are kept. -/
structure Preserves (a b : Kernel) (S : Nat → UInt32 → Prop) : Prop where
  rx : ∀ x ∈ a.mailbox ++ a.delayed, b.rx x = a.rx x
  kept : ∀ x ∈ a.mailbox ++ a.delayed, S x (a.rx x) → a.Kept b x
  held : ∀ x p, a.Held x p → S x p → b.Held x p ∧ a.Kept b x

lemma Preserves.mono {S T : Nat → UInt32 → Prop} (h : a.Preserves b S) (hT : ∀ x p, T x p → S x p) :
    a.Preserves b T where
  rx := h.rx
  kept := fun x hx hTx => h.kept x hx (hT x _ hTx)
  held := fun x p hx hTx => h.held x p hx (hT x p hTx)

lemma preserves {S : Nat → UInt32 → Prop} (hok : a.Ok base r) (hown : a.MailOwned) (hp : a.Permits op)
    (hr : a.Respects op) (he : a.Effect op reply b)
    (hl : ∀ x p c, a.OwnedBy x p c → S x p → a.LeavesAlone c op) : a.Preserves b S where
  rx := fun x hx => (hown.keep hok hp hr he hx).1
  kept := by
    intro x hx hS
    obtain ⟨c, hc⟩ := hown x hx
    exact (hc.step he hok (hl x _ c hc hS)).2
  held := by
    intro x p hx hS
    exact hx.step he hok fun c hc => hl x p c hc hS

lemma Preserves.mailTo (h : a.Preserves b fun _ q => q ∈ g) (hp : p ∈ g) : ∀ e ∈ a.mailTo p, a.Kept b e := by
  intro e he
  obtain ⟨hmem, rfl⟩ := mem_mailTo.mp he
  exact h.kept e (List.mem_append_left _ hmem) hp

/-- What the others keep -/
lemma Outside.preserves (hf : a.Outside g op) (hok : a.Ok base r) (hown : a.MailOwned) (hp : a.Permits op)
    (hr : a.Respects op) (he : a.Effect op reply b) : a.Preserves b fun _ q => q ∈ g :=
  Kernel.preserves hok hown hp hr he fun x q c hc hq => hf.alone x q c hc hq

/-- A process of the group lives on. -/
lemma Outside.live (hf : a.Outside g op) (hok : a.Ok base r) (hy : a.call op = some (reply, b))
    (hp : p ∈ g) (hlive : ∃ x ∈ a.sched.live, a.sched.pid x = p) :
    ∃ x ∈ b.sched.live, b.sched.pid x = p := by
  obtain ⟨x, hx, rfl⟩ := hlive
  have hop : op = .terminate → a.sched.pid x ≠ a.sched.currentPid := by
    rintro rfl hcur
    rcases hf.caller with hint | hcaller
    · cases hint
    · exact hcaller (hcur ▸ hp)
  obtain ⟨hx', hpid⟩ := hok.live_step hy hx hop
  exact ⟨x, hx', hpid⟩

/-! ### Sending -/

/-- Addressing an envelope writes its sender and its receiver only. -/
lemma address_content {pid : UInt32} (hb : a.address pid e = some b) {x : Nat} (hx : e + 8 ≤ x) :
    b.pool.memory x = a.pool.memory x := by
  obtain ⟨c, -, rfl⟩ := address_eq_some_iff.mp hb
  have htx : x < txField e ∨ txField e + 4 ≤ x := by
    rw [txField]
    omega
  have hrx : x < rxField e ∨ rxField e + 4 ≤ x := by
    rw [rxField]
    omega
  exact (write32_frame htx).trans (write32_frame hrx)

/-- Sending an envelope leaves what stands behind its header alone. -/
lemma Effect.content (he : a.Effect op reply b)
    (hop : ∃ pid, op = .send pid e ∨ ∃ delay, op = .delayedSend pid e delay) {x : Nat}
    (hx : e + headerSize ≤ x) : b.pool.memory x = a.pool.memory x := by
  rw [headerSize] at hx
  cases he with
  | quiet s hq => rfl
  | sent s hb =>
    obtain ⟨pid, hsend | ⟨delay, hsend⟩⟩ := hop
    · obtain ⟨-, rfl⟩ := Op.send.inj hsend
      exact address_content hb (by omega)
    · cases hsend
  | delayed hb =>
    obtain ⟨pid, hsend | ⟨delay, hsend⟩⟩ := hop
    · cases hsend
    · obtain ⟨-, rfl, -⟩ := Op.delayedSend.inj hsend
      refine (write32_frame ?_).trans (address_content hb (by omega))
      rw [sendTimeField]
      omega
  | _ =>
    obtain ⟨pid, hsend | ⟨delay, hsend⟩⟩ := hop
    · cases hsend
    · cases hsend

/-- A block that is in no mailbox finds room in both. -/
lemma storeIn_mail (hok : a.Ok base r) (hpost : a.Posted base) (hc : c < memBlockCount)
    (hstart : a.pool.start c = e) (hnot : e ∉ a.mailbox ++ a.delayed) :
    storeIn a.mailbox e = a.mailbox ++ [e] ∧ storeIn a.delayed e = a.delayed ++ [e] := by
  rw [← hstart, hok.pool.start_eq c hc] at hnot
  have hlen := hpost.length_lt hc hnot
  rw [storeIn, storeIn, if_pos (by omega), if_pos (by omega)]
  exact ⟨rfl, rfl⟩

/-! ### What comes into the mailboxes -/

/-- With the mailbox, the messages for a process are the same. -/
lemma mailTo_same (hkeep : ∀ x ∈ a.mailbox, b.rx x = a.rx x) (hm : b.mailbox = a.mailbox) :
    b.mailTo p = a.mailTo p := by
  have happ := mailTo_append (p := p) (hm.trans (List.append_nil _).symm) hkeep
  rwa [List.filter_nil, List.append_nil] at happ

/-- A message was sent, or it was delayed before. -/
lemma Effect.mailTo_call (he : a.Effect op reply b) (hok : a.Ok base r) (hpost : a.Posted base)
    (hp : a.Permits op) (hkeep : ∀ x ∈ a.mailbox, b.rx x = a.rx x) (hop : ∀ c, op ≠ .uart c)
    (hrec : op = .receive → op.isQuiet reply = false → a.sched.currentPid ≠ p) :
    b.mailTo p = a.mailTo p ++ (op.arrivals reply).filter fun e => b.rx e = p := by
  have hlost : b.mailTo p = a.mailTo p → op.arrivals reply = [] →
      b.mailTo p = a.mailTo p ++ (op.arrivals reply).filter fun e => b.rx e = p := by
    intro hm harr
    rw [harr, List.filter_nil, List.append_nil]
    exact hm
  cases he with
  | quiet s hq => exact hlost (mailTo_same hkeep rfl) (Op.arrivals_of_isQuiet hq)
  | @sent pid e b' s hb =>
    obtain ⟨hmail, -, -, -⟩ := address_fields hb
    obtain ⟨-, ⟨c, hc, hstart⟩, hnot⟩ := hp
    obtain ⟨hroom, -⟩ := storeIn_mail hok hpost (hok.pool.lt_of_mem (q := .usedBlocks) hc) hstart hnot
    apply mailTo_append _ hkeep
    rw [withSched_mailbox, post, hmail, hroom, Op.arrivals, if_pos rfl]
  | delayed hb => exact hlost (mailTo_same hkeep (address_fields hb).1) rfl
  | @received i e hi he =>
    have hnot : (a.mailbox.eraseIdx i).filter (fun x => decide (a.rx x = p)) = a.mailTo p :=
      filter_eraseIdx_of_not _ hi (decide_eq_false (he ▸ hrec rfl rfl))
    exact hlost hnot rfl
  | granted hp' => exact hlost (mailTo_same hkeep rfl) rfl
  | released s hc hx ho => exact hlost (mailTo_same hkeep rfl) rfl
  | stored => exact hlost (mailTo_same hkeep rfl) rfl
  | @ticked new w b' s hb =>
    have hmv := hok.moves_tick hb
    exact mailTo_append hmv.mailbox hkeep
  | typedLost hp' => exact absurd rfl (hop _)
  | typed s hp' hb => exact absurd rfl (hop _)

/-- The envelopes that come into the mailbox with an operation -/
def comesIn (a : Kernel) : Op → Reply → List Nat
  | .uart _, .sent (some 0) => (a.pool.available.head?.map a.pool.start).toList
  | op, reply => op.arrivals reply

lemma comesIn_of_ne (hop : ∀ c, op ≠ .uart c) : a.comesIn op reply = op.arrivals reply := by
  cases op with
  | uart c => exact absurd rfl (hop c)
  | _ => rfl

lemma comesIn_of_quiet (h : op.isQuiet reply = true) : a.comesIn op reply = [] := by
  by_cases hop : ∃ c, op = .uart c
  · obtain ⟨c, rfl⟩ := hop
    cases reply with
    | sent code =>
      cases code with
      | none => rfl
      | some code => cases h
    | _ => rfl
  · rw [comesIn_of_ne fun c hc => hop ⟨c, hc⟩]
    exact Op.arrivals_of_isQuiet h

lemma mem_comesIn_uart {d : BlockPtr} {t : List BlockPtr} {v : UInt8} (hav : a.pool.available = d :: t)
    {x : Nat} (hx : x ∈ a.comesIn (.uart v) reply) : x = a.pool.start d := by
  rw [comesIn.eq_def, hav] at hx
  split at hx
  · simpa using hx
  · cases hx

/-- A character comes as a message for the keyboard decoder, or it is lost. -/
lemma Effect.mailbox_uart {c : UInt8} (he : a.Effect (.uart c) reply b) (hok : a.Ok base r)
    (hpost : a.Posted base) (hp : a.Permits (.uart c)) :
    b.mailbox = a.mailbox ∧ (∀ x ∈ a.comesIn (.uart c) reply,
        b.rx x = kcdPid ∧ (base = 0 ∨ a.sched.find kcdPid = none)) ∨
      ∃ x, a.comesIn (.uart c) reply = [x] ∧ b.mailbox = a.mailbox ++ [x] ∧ b.rx x = kcdPid := by
  generalize hop : Op.uart c = op at he hp
  cases he with
  | quiet s hq =>
    subst hop
    refine .inl ⟨rfl, ?_⟩
    intro x hx
    rw [comesIn_of_quiet hq] at hx
    cases hx
  | @typedLost x p' _ code hp' hlost =>
    obtain ⟨d, t, hav, hstart, -⟩ := take_cases hp'
    refine .inl ⟨rfl, ?_⟩
    intro y hy
    obtain rfl : y = x := by
      rw [← hstart]
      exact mem_comesIn_uart hav (hop ▸ hy)
    refine ⟨type_rx .., hlost.imp_left ?_⟩
    rintro rfl
    have hd := hok.pool.start_eq d (hok.pool.lt_of_mem (q := .availableBlocks) (by simp [hav]))
    omega
  | @typed x q v b' s hp' hb =>
    obtain ⟨hmail, -, -, -⟩ := address_fields hb
    obtain ⟨d, t, hav, hstart, -⟩ := take_cases hp'
    have hd : d < memBlockCount := hok.pool.lt_of_mem (q := .availableBlocks) (by simp [hav])
    obtain ⟨hroom, -⟩ := storeIn_mail hok hpost hd hstart (hstart ▸ hp d t hav)
    refine .inr ⟨x, ?_, ?_, (address_header hb).1⟩
    · rw [comesIn, hav, ← hstart]
      rfl
    · rw [withSched_mailbox, post, hmail]
      exact hroom
  | _ => cases hop

/-- A message for a process other than the keyboard decoder was sent, or it was delayed before. -/
theorem Effect.mailTo (he : a.Effect op reply b) (hok : a.Ok base r) (hpost : a.Posted base)
    (hp : a.Permits op) (hrx : ∀ x ∈ a.mailbox ++ a.delayed, b.rx x = a.rx x) (hne : p ≠ kcdPid)
    (hrec : op = .receive → op.isQuiet reply = false → a.sched.currentPid ≠ p) :
    b.mailTo p = a.mailTo p ++ (op.arrivals reply).filter fun e => b.rx e = p := by
  have hkeep : ∀ x ∈ a.mailbox, b.rx x = a.rx x := fun x hx => hrx x (List.mem_append_left _ hx)
  by_cases hop : ∃ c, op = .uart c
  · obtain ⟨c, rfl⟩ := hop
    have harr : (Op.uart c).arrivals reply = [] := rfl
    rw [harr, List.filter_nil, List.append_nil]
    rcases he.mailbox_uart hok hpost hp with ⟨hm, -⟩ | ⟨x, -, hm, hx⟩
    · exact mailTo_same hkeep hm
    · rw [mailTo_append hm hkeep, List.filter_cons_of_neg (by simpa [hx] using hne.symm), List.filter_nil,
        List.append_nil]
  · exact he.mailTo_call hok hpost hp hkeep (fun c hc => hop ⟨c, hc⟩) hrec

/-- What comes in for a process, which may be the keyboard decoder -/
theorem Effect.mailTo_comesIn (he : a.Effect op reply b) (hok : a.Ok base r) (hpost : a.Posted base)
    (hp : a.Permits op) (hrx : ∀ x ∈ a.mailbox ++ a.delayed, b.rx x = a.rx x) (hbase : base ≠ 0)
    (hlive : p = kcdPid → a.sched.find kcdPid ≠ none)
    (hrec : op = .receive → op.isQuiet reply = false → a.sched.currentPid ≠ p) :
    b.mailTo p = a.mailTo p ++ (a.comesIn op reply).filter fun e => b.rx e = p := by
  have hkeep : ∀ x ∈ a.mailbox, b.rx x = a.rx x := fun x hx => hrx x (List.mem_append_left _ hx)
  by_cases hop : ∃ c, op = .uart c
  · obtain ⟨c, rfl⟩ := hop
    rcases he.mailbox_uart hok hpost hp with ⟨hm, hlost⟩ | ⟨x, hin, hm, -⟩
    · rw [mailTo_same hkeep hm, List.filter_eq_nil_iff.mpr, List.append_nil]
      intro x hx
      obtain ⟨hrxx, hwhy⟩ := hlost x hx
      rw [decide_eq_true_iff, hrxx]
      rintro rfl
      exact hwhy.elim hbase (hlive rfl)
    · rw [mailTo_append hm hkeep, hin]
  · rw [comesIn_of_ne fun c hc => hop ⟨c, hc⟩]
    exact he.mailTo_call hok hpost hp hkeep (fun c hc => hop ⟨c, hc⟩) hrec

/-- What the timer moves was in the delayed mailbox. -/
lemma Effect.mem_arrivals (he : a.Effect op reply b) (hok : a.Ok base r) {x : Nat}
    (hx : x ∈ op.arrivals reply) : (∃ pid, op = .send pid x ∧ b.rx x = pid) ∨
      x ∈ a.delayed ∧ b.pool = a.pool := by
  cases he with
  | quiet s hq =>
    rw [Op.arrivals_of_isQuiet hq] at hx
    cases hx
  | @sent pid e b' s hb =>
    rw [Op.arrivals, if_pos rfl, List.mem_singleton] at hx
    subst hx
    exact .inl ⟨pid, rfl, (address_header hb).1⟩
  | @ticked new w b' s hb =>
    have hmv := hok.moves_tick hb
    exact .inr ⟨hmv.delayed.mem_iff.mp (List.mem_append_left _ hx), hmv.pool⟩
  | _ => cases hx

/-- A delayed message was there before, or it is put off now. -/
lemma Effect.mem_delayed (he : a.Effect op reply b) (hok : a.Ok base r) {x : Nat} (hx : x ∈ b.delayed) :
    x ∈ a.delayed ∨ ∃ pid delay, op = .delayedSend pid x delay ∧ b.rx x = pid := by
  cases he with
  | sent s hb => exact .inl ((address_fields hb).2.1 ▸ hx)
  | @delayed pid delay e b' hb =>
    obtain ⟨-, hdel, -, -⟩ := address_fields hb
    rw [postDelayed, hdel] at hx
    rcases mem_storeIn hx with hx | rfl
    · exact .inl hx
    · refine .inr ⟨pid, delay, rfl, ?_⟩
      refine (read32_write32_of_disjoint ?_).trans (address_header hb).1
      simp only [rxField, sendTimeField]
      omega
  | ticked s hb =>
    have hmv := hok.moves_tick hb
    exact .inl (hmv.sublist.subset hx)
  | typed s hp hb => exact .inl ((address_fields hb).2.1 ▸ hx)
  | _ => exact .inl hx

/-- A delayed message stays, or it comes into the mailbox. -/
lemma Effect.delayed_stays (he : a.Effect op reply b) (hok : a.Ok base r) {x : Nat} (hx : x ∈ a.delayed) :
    x ∈ b.delayed ∨ x ∈ op.arrivals reply := by
  cases he with
  | sent s hb =>
    left
    rw [withSched_delayed, post, (address_fields hb).2.1]
    exact hx
  | delayed hb =>
    left
    rw [postDelayed, (address_fields hb).2.1, storeIn]
    split_ifs
    · exact List.mem_append_left _ hx
    · exact hx
  | ticked s hb =>
    have hmv := hok.moves_tick hb
    exact (List.mem_append.mp (hmv.delayed.mem_iff.mpr hx)).symm
  | typed s hp hb =>
    left
    rw [withSched_delayed, post, (address_fields hb).2.1]
    exact hx
  | _ => exact .inl hx

/-- The first message for the running process is taken out. -/
lemma mailTo_received {i : Nat} (hi : a.mailbox[i]? = some e) (hrx : a.rx e = p)
    (hfirst : ∀ j < i, ∀ x, a.mailbox[j]? = some x → a.rx x ≠ p) :
    a.mailTo p = e :: mailTo { a with mailbox := a.mailbox.eraseIdx i } p :=
  filter_eraseIdx_of_first (fun x => decide (a.rx x = p)) hi (decide_eq_true hrx)
    fun j hj x hx => decide_eq_false (hfirst j hj x hx)

/-! ### What is held -/

/-- One envelope is not held by two processes. -/
lemma Held.unique (hok : a.Ok base r) {q : UInt32} {x : Nat} (h : a.Held x p) (h' : a.Held x q) :
    p = q := by
  obtain ⟨c, hc⟩ := h.owned
  obtain ⟨d, hd⟩ := h'.owned
  exact (hc.unique hok hd).2

lemma Held.ne (hok : a.Ok base r) {q : UInt32} {x y : Nat} (h : a.Held x p) (h' : a.Held y q)
    (hpq : p ≠ q) : x ≠ y := by
  rintro rfl
  exact hpq (h.unique hok h')

/-- No block stands at the null address. -/
lemma Held.ne_zero (hok : a.Ok base r) (hbase : base ≠ 0) {x : Nat} (h : a.Held x p) : x ≠ 0 := by
  rintro rfl
  obtain ⟨c, hc⟩ := h.owned
  have hstart := hc.start.symm.trans (hok.pool.start_eq c (hc.lt hok))
  omega

lemma find_of_live (hok : a.Ok base r) (h : ∃ x ∈ a.sched.live, a.sched.pid x = p) :
    a.sched.find p ≠ none := by
  obtain ⟨x, hx⟩ := h
  rw [hok.sched.wf.find_eq_some_iff.mpr hx]
  simp

/-- A message that was received is held. -/
lemma held_of_received (hpost : a.Posted base) (hown : a.MailOwned) {i : Nat}
    (hi : a.mailbox[i]? = some e) (hrx : a.rx e = p) :
    Held { a with mailbox := a.mailbox.eraseIdx i } e p where
  owned := by
    obtain ⟨c, hc⟩ := hown e (List.mem_append_left _ (List.mem_of_getElem? hi))
    exact ⟨c, hc.used, hc.start, hc.pid.trans hrx⟩
  notMem := by
    have hperm : (e :: (a.mailbox.eraseIdx i ++ a.delayed)).Perm (a.mailbox ++ a.delayed) :=
      (perm_cons_eraseIdx hi).append_right a.delayed
    exact (List.nodup_cons.mp (hperm.nodup_iff.mpr hpost.nodup)).1

/-- A block that was granted is held. -/
lemma held_of_granted (hok : a.Ok base r) (hown : a.MailOwned) {x : Nat} {q : Pool}
    (hp : a.pool.take a.sched.currentPid = some (x, q)) :
    (a.withPool q).Held x a.sched.currentPid ∧ ∀ p, ¬ a.Held x p := by
  obtain ⟨d, t, hav, hstart, rfl⟩ := take_cases hp
  have hd : d ∈ a.pool.available := by simp [hav]
  have hnot : ∀ p c, ¬ a.OwnedBy x p c := by
    intro p c hc
    apply hok.ne_of_available hd hc.used
    exact hok.pool.start_inj (hok.pool.lt_of_mem (q := .availableBlocks) hd) (hc.lt hok)
      (hstart.trans hc.start.symm)
  refine ⟨⟨⟨d, List.mem_append_right _ (by simp), hstart, ?_⟩, ?_⟩, ?_⟩
  · exact Function.update_self ..
  · intro hx
    obtain ⟨c, hc⟩ := hown x hx
    exact hnot _ c hc
  · rintro p ⟨⟨c, hc⟩, -⟩
    exact hnot p c hc

end Spec.Kernel

/-! ### Replies -/

namespace Spec.Kernel

variable {a b : Kernel} {base : Nat} {r : PcbPtr} {reply : Reply} {p pid delay : UInt32} {e x : Nat} {v : UInt8}

lemma send_code (hy : a.call (.send pid e) = some (reply, b)) : ∃ c, reply = .code c := by
  obtain ⟨x, -, hx⟩ := Option.map_eq_some_iff.mp hy
  exact ⟨x.1, (Prod.mk.inj hx).1.symm⟩

lemma release_code (hy : a.call (.release e) = some (reply, b)) : ∃ c, reply = .code c := by
  obtain ⟨x, -, hx⟩ := Option.map_eq_some_iff.mp hy
  exact ⟨x.1, (Prod.mk.inj hx).1.symm⟩

lemma store_done (hy : a.call (.store x v) = some (reply, b)) : reply = .done ∧ b = a.store x v := by
  obtain ⟨hreply, hb⟩ := Prod.mk.inj (Option.some.inj hy)
  exact ⟨hreply.symm, hb.symm⟩

/-- A request is answered with a block that nobody held, or not yet. -/
lemma request_cases (hok : a.Ok base r) (hown : a.MailOwned) (hy : a.call .request = some (reply, b))
    (he : a.Effect .request reply b) : reply = .block none ∨
      ∃ x, reply = .block (some x) ∧ b.Held x a.sched.currentPid ∧ ∀ p, ¬ a.Held x p := by
  obtain ⟨o, rfl⟩ : ∃ o, reply = .block o := ⟨_, (Prod.mk.inj (Option.some.inj hy)).1.symm⟩
  cases he with
  | quiet s hq =>
    cases o with
    | none => exact .inl rfl
    | some x => cases hq
  | @granted x q hp =>
    obtain ⟨hheld, hnew⟩ := held_of_granted hok hown hp
    exact .inr ⟨x, rfl, hheld, hnew⟩

/-- What is received -/
structure Received (a b : Kernel) (e : Nat) : Prop where
  mem : e ∈ a.mailbox
  rx : a.rx e = a.sched.currentPid
  held : b.Held e a.sched.currentPid
  mailTo : a.mailTo a.sched.currentPid = e :: b.mailTo a.sched.currentPid
  sub : ∀ x ∈ b.mailbox ++ b.delayed, x ∈ a.mailbox ++ a.delayed
  stays : ∀ x ∈ a.mailbox ++ a.delayed, x ≠ e → x ∈ b.mailbox ++ b.delayed
  delayed : b.delayed = a.delayed
  pool : b.pool = a.pool

/-- A process receives its first message, or it waits. -/
lemma receive_cases (hpost : a.Posted base) (hown : a.MailOwned) (hy : a.call .receive = some (reply, b))
    (he : a.Effect .receive reply b) : reply = .envelope none ∨
      ∃ e t, reply = .envelope (some (e, t)) ∧ a.Received b e := by
  generalize hop : Op.receive = op at hy he
  cases he with
  | quiet s hq =>
    subst hop
    obtain ⟨o, rfl⟩ : ∃ o, reply = .envelope o := ⟨_, (Prod.mk.inj (Option.some.inj hy)).1.symm⟩
    cases o with
    | none => exact .inl rfl
    | some e => cases hq
  | @received i e hi hrx hfirst =>
    refine .inr ⟨e, a.tx e, rfl, List.mem_of_getElem? hi, hrx, held_of_received hpost hown hi hrx,
      mailTo_received hi hrx hfirst, ?_, ?_, rfl, rfl⟩
    · intro x hx
      exact List.mem_append.mpr ((List.mem_append.mp hx).imp_left List.mem_of_mem_eraseIdx)
    · intro x hx hne
      refine List.mem_append.mpr ((List.mem_append.mp hx).imp_left ?_)
      intro hm
      exact List.mem_of_ne_of_mem hne ((perm_cons_eraseIdx hi).mem_iff.mpr hm)
  | _ => cases hop

lemma Held.store (h : a.Held x p) (y : Nat) : (a.store y v).Held x p := by
  obtain ⟨c, hc⟩ := h.owned
  exact ⟨⟨c, hc.used, hc.start, hc.pid⟩, h.notMem⟩

end Spec.Kernel

/-! ### The work of a process at a block that it holds -/

namespace Op.WorksAt

variable {a b : Spec.Kernel} {base : Nat} {r : PcbPtr} {op : Op} {reply : Reply} {x : Option Nat}

lemma permits (h : op.WorksAt x) (hcur : a.sched.currentPid ≠ 0)
    (hx : ∀ e, x = some e → ∃ p, a.Held e p) : a.Permits op := by
  have hsend : ∀ e, x = some e → (∃ c ∈ a.pool.used, a.pool.start c = e) ∧ e ∉ a.mailbox ++ a.delayed := by
    intro e he
    obtain ⟨p, ⟨c, hc⟩, hnot⟩ := hx e he
    exact ⟨⟨c, hc.used, hc.start⟩, hnot⟩
  cases op with
  | send pid e => exact ⟨hcur, hsend e h⟩
  | delayedSend pid e delay => exact ⟨hcur, hsend e h⟩
  | timer => trivial
  | uart c => exact False.elim h
  | _ => exact hcur

lemma respects (h : op.WorksAt x) (hok : a.Ok base r) (hown : a.MailOwned)
    (hx : ∀ e, x = some e → ∃ p, a.Held e p) : a.Respects op := by
  cases op with
  | release y =>
    obtain ⟨p, hheld⟩ := hx y h
    exact hheld.notMem
  | store y w =>
    obtain ⟨z, hz, hle, hlt⟩ := h
    obtain ⟨p, ⟨d, hd⟩, hnot⟩ := hx z hz
    intro e he
    obtain ⟨c, hc⟩ := hown e he
    have hne : e ≠ z := by
      rintro rfl
      exact hnot he
    have hsize : headerSize ≤ memBlockSize := by decide
    rcases hc.apart hok hd hne with hapart | hapart
    · exact .inr (by omega)
    · exact .inl (by omega)
  | _ => trivial

/-- Every other block is kept. -/
lemma preserves (h : op.WorksAt x) (hok : a.Ok base r) (hown : a.MailOwned) (hp : a.Permits op)
    (hx : ∀ e, x = some e → ∃ p, a.Held e p) (he : a.Effect op reply b) :
    a.Preserves b fun y _ => x ≠ some y := by
  refine Spec.Kernel.preserves hok hown hp (h.respects hok hown hx) he ?_
  intro y p c hc hne
  have hstart : ∀ e, x = some e → a.pool.start c ≠ e := by
    rintro e rfl hs
    exact hne (congrArg some (hs.symm.trans hc.start))
  cases op with
  | send pid e => exact hstart e h
  | delayedSend pid e delay => exact hstart e h
  | release e => exact .inl (hstart e h)
  | store z w =>
    obtain ⟨e, hxe, hle, hlt⟩ := h
    obtain ⟨q, ⟨d, hd⟩, -⟩ := hx e hxe
    have hye : y ≠ e := by
      rintro rfl
      exact hne hxe
    rw [Spec.Kernel.LeavesAlone, hc.start]
    rcases hc.apart hok hd hye with hapart | hapart
    · exact .inr (Nat.le_trans hapart hle)
    · exact .inl (Nat.lt_of_lt_of_le hlt hapart)
  | _ => trivial

lemma preserves_at {e : Nat} {p : UInt32} (h : op.WorksAt (some e)) (hok : a.Ok base r)
    (hown : a.MailOwned) (hp : a.Permits op) (hx : a.Held e p) (he : a.Effect op reply b) :
    a.Preserves b fun y _ => y ≠ e := by
  refine (h.preserves hok hown hp ?_ he).mono ?_
  · intro y hy
    exact ⟨p, Option.some.inj hy ▸ hx⟩
  · intro y _ hne hy
    exact hne (Option.some.inj hy).symm

lemma preserves_all (h : op.WorksAt none) (hok : a.Ok base r) (hown : a.MailOwned) (hp : a.Permits op)
    (he : a.Effect op reply b) : a.Preserves b fun _ _ => True := by
  refine (h.preserves hok hown hp ?_ he).mono ?_
  · intro y hy
    cases hy
  · intro y _ _ hy
    cases hy

end Op.WorksAt

/-! ### In the code -/

/-- Releasing a block of somebody else does nothing. -/
lemma Spec.Kernel.Ok.release_rejected {a : Spec.Kernel} {base : Nat} {r : PcbPtr} (hok : a.Ok base r)
    {x : Nat} (hnot : ∀ c ∈ a.pool.used, a.pool.start c = x → a.pool.pid c ≠ a.sched.currentPid) :
    ∃ c, c ≠ 0 ∧ a.call (.release x) = some (.code c, a) := by
  rcases hok.pool.release_cases x a.sched.currentPid with ⟨c, hc, he⟩ | ⟨d, hd, hstart, hpid, -⟩
  · refine ⟨c, hc, Option.map_eq_some_iff.mpr ⟨(c, a), ?_, rfl⟩⟩
    rw [Spec.Kernel.releaseMemoryBlock, he]
    exact if_neg hc
  · exact absurd hpid (hnot d hd hstart)

/-- An operation that does nothing -/
lemma Orderly.step_same {priority : Fin 6 → UInt8} {base : Nat} {k k' : Kernel} {a : Spec.Kernel}
    {r : PcbPtr} {op : Op} {reply reply' : Reply} (h : Orderly priority base k a r) (hp : a.Permits op)
    (hy : a.call op = some (reply', a)) (hcall : k.call op = some (reply, k')) :
    reply = reply' ∧ ∃ r', Orderly priority base k' a r' := by
  have hstep : k.Step ⟨k.currentPid, op, reply⟩ k' := ⟨rfl, (h.rep.permits_iff h.ok op).mpr hp, hcall⟩
  obtain ⟨b, r', -, hb, hs, -⟩ := h.toSafe.step hstep
  obtain ⟨rfl, rfl⟩ := Prod.mk.inj (Option.some.inj (hb.symm.trans hy))
  exact ⟨rfl, r', hs, h.mailOwned⟩

/-- What the others see to, in the abstract kernel as in the code -/
lemma KernelRep.outside {k : Kernel} {a : Spec.Kernel} {base : Nat} {r : PcbPtr} {op : Op}
    {g : List UInt32} (h : KernelRep k a) (hok : a.Ok base r) (hf : k.Outside g op) : a.Outside g op := by
  obtain ⟨hcaller, -, hspares⟩ := hf
  rw [h.currentPid] at hcaller
  have hpid : ∀ {x p c}, a.OwnedBy x p c → (k.pool.block c).pid = p :=
    fun hc => (h.pool.pid _).trans hc.pid
  refine ⟨hcaller, ?_⟩
  intro x p c hc hp
  cases op with
  | send pid e =>
    intro hs
    exact hspares c (hc.lt hok) ((h.pool.start c).trans hs) (hpid hc ▸ hp)
  | delayedSend pid e delay =>
    intro hs
    exact hspares c (hc.lt hok) ((h.pool.start c).trans hs) (hpid hc ▸ hp)
  | release y =>
    right
    rintro hcur
    rw [← hcur, hc.pid] at hcaller
    rcases hcaller with hint | hnot
    · cases hint
    · exact hnot hp
  | store y v =>
    have hout := hspares c (hc.lt hok)
    rw [h.pool.start, hpid hc] at hout
    rcases Nat.lt_or_ge y (a.pool.start c) with hlt | hle
    · exact .inl hlt
    · right
      by_contra hlt
      exact hout hle (Nat.lt_of_not_le hlt) hp
  | _ => trivial

end RtxKernel
