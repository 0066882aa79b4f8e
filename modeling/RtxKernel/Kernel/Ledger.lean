import RtxKernel.Kernel.Safety

/-!
# The ledger of messages

What a history says about messages, without a look at the mailboxes: which messages were accepted by
`delayed_send`, which of them wait, which were posted to the mailbox, and which were received.

`Keeps l a` says that the mailboxes of the kernel `a` agree with the ledger `l`. It is kept by every
operation, as long as blocks in a mailbox are not returned and their headers are not overwritten.
-/

namespace RtxKernel

/-- A message as it was accepted, at the tick `sentAt`; `delay` is that of `delayed_send`. -/
structure Message where
  envelope : Nat
  sender : UInt32
  receiver : UInt32
  sentAt : Nat
  delay : Option UInt32
  deriving DecidableEq

/-- A message as it was received, with the sender that `receive_message` tells. -/
structure Receipt where
  envelope : Nat
  sender : UInt32
  receiver : UInt32
  deriving DecidableEq

/-- What the receiver of a message should be told. -/
def Message.receipt (m : Message) : Receipt := ⟨m.envelope, m.sender, m.receiver⟩

structure Ledger where
  now : Nat
  accepted : List Message
  waiting : List Message
  posted : List Message
  received : List Receipt

namespace Ledger

def empty : Ledger := ⟨0, [], [], [], []⟩

/-- The messages that are moved with the envelopes `es`. -/
def moved (l : Ledger) (es : List Nat) : List Message :=
  es.filterMap fun x => l.waiting.find? (·.envelope = x)

def record (l : Ledger) (e : Event) : Ledger :=
  match e.op, e.reply with
  | .send pid x, .code c =>
    if c = 0 then { l with posted := l.posted ++ [⟨x, e.caller, pid, l.now, none⟩] } else l
  | .delayedSend pid x delay, .code c =>
    let m : Message := ⟨x, e.caller, pid, l.now, some delay⟩
    if c = 0 then { l with accepted := l.accepted ++ [m], waiting := l.waiting ++ [m] } else l
  | .receive, .envelope (some (x, tx)) =>
    { l with received := l.received ++ [⟨x, tx, e.caller⟩] }
  | .timer, .moved es =>
    { l with
      now := l.now + 1
      posted := l.posted ++ l.moved es
      waiting := l.waiting.filter (·.envelope ∉ es) }
  | _, _ => l

/-- The ledger of a history. -/
def of (es : List Event) : Ledger := es.foldl record empty

/-- What was posted to `p`, as it should be received. -/
def postedTo (l : Ledger) (p : UInt32) : List Receipt :=
  (l.posted.filter (·.receiver = p)).map Message.receipt

def receivedBy (l : Ledger) (p : UInt32) : List Receipt := l.received.filter (·.receiver = p)

@[simp] lemma of_snoc (es : List Event) (e : Event) : of (es ++ [e]) = (of es).record e := by
  simp [of]

lemma mem_moved {l : Ledger} {es : List Nat} {m : Message} (h : m ∈ l.moved es) :
    m ∈ l.waiting ∧ m.envelope ∈ es := by
  obtain ⟨x, hx, hm⟩ := List.mem_filterMap.mp h
  have henv : m.envelope = x := by simpa using List.find?_some hm
  exact ⟨List.mem_of_find?_eq_some hm, henv ▸ hx⟩

lemma map_moved {l : Ledger} {es : List Nat}
    (h : ∀ x ∈ es, x ∈ l.waiting.map Message.envelope) :
    (l.moved es).map Message.envelope = es := by
  induction es with
  | nil => rfl
  | cons x es ih =>
    obtain ⟨m, hm, hx⟩ := List.mem_map.mp (h x (by simp))
    obtain ⟨m', hm'⟩ : ∃ m', l.waiting.find? (·.envelope = x) = some m' := by
      apply Option.isSome_iff_exists.mp
      exact List.find?_isSome.mpr ⟨m, hm, by simpa using hx⟩
    have henv : m'.envelope = x := by simpa using List.find?_some hm'
    have ih' := ih fun y hy => h y (by simp [hy])
    simp only [moved] at ih' ⊢
    rw [List.filterMap_cons, hm', List.map_cons, henv, ih']

/-- An operation that has done nothing leaves the ledger alone. -/
lemma record_of_isQuiet (l : Ledger) {e : Event} (h : e.op.isQuiet e.reply = true) :
    l.record e = l := by
  obtain ⟨caller, op, reply⟩ := e
  cases op <;> cases reply <;>
    simp_all [record, Op.isQuiet]

end Ledger

/-! ### Disciplined operations -/

/-- The header of an envelope are its first four words. -/
def headerSize : Nat := 16

/-- What the owners of envelopes see to: a block in a mailbox is not returned, and its header is not
overwritten. -/
def Kernel.Respects (k : Kernel) : Op → Prop
  | .release x => ¬ k.InMailbox x
  | .store x _ => ∀ e, k.InMailbox e → x < e ∨ e + headerSize ≤ x
  | _ => True

instance (k : Kernel) : (op : Op) → Decidable (k.Respects op)
  | .release x => inferInstanceAs (Decidable (¬ k.InMailbox x))
  | .store x _ =>
    decidable_of_iff (∀ i < memBlockCount, (∀ e ∈ k.mailbox i, x < e ∨ e + headerSize ≤ x) ∧
      ∀ e ∈ k.delayedMailbox i, x < e ∨ e + headerSize ≤ x) <| by
        constructor
        · rintro h e ⟨i, hi, he | he⟩
          · exact (h i hi).1 e he
          · exact (h i hi).2 e he
        · intro h i hi
          exact ⟨fun e he => h e ⟨i, hi, .inl he⟩, fun e he => h e ⟨i, hi, .inr he⟩⟩
  | .releaseProcessor | .block _ | .unblockByPid _ _ | .unblockByType _ | .setPriority _ _
  | .send _ _ | .delayedSend _ _ _ | .receive | .request | .terminate | .timer | .uart _ =>
    .isTrue trivial

def Op.isUart : Op → Bool
  | .uart _ => true
  | _ => false

/-- The operations of histories in which envelopes are used as they should be. The message of the UART,
which names the interrupted process as its sender, is left out. -/
def Kernel.Disciplined (k : Kernel) (op : Op) : Prop :=
  k.Permits op ∧ k.Respects op ∧ op.isUart = false

instance (k : Kernel) (op : Op) : Decidable (k.Disciplined op) :=
  inferInstanceAs (Decidable (k.Permits op ∧ k.Respects op ∧ op.isUart = false))

namespace Spec.Kernel

variable {a b : Kernel} {base : Nat} {r : PcbPtr} {op : Op} {reply : Reply} {l : Ledger}
  {pending : List Message} {m : Message} {p : UInt32}

def Respects (a : Kernel) : Op → Prop
  | .release x => x ∉ a.mailbox ++ a.delayed
  | .store x _ => ∀ e ∈ a.mailbox ++ a.delayed, x < e ∨ e + headerSize ≤ x
  | _ => True

/-! ### Headers stay -/

/-- The header of the envelope `e` is the same in both states. -/
def SameHeader (a b : Kernel) (e : Nat) : Prop :=
  b.rx e = a.rx e ∧ b.tx e = a.tx e ∧ b.sendTime e = a.sendTime e

lemma SameHeader.refl (a : Kernel) (e : Nat) : a.SameHeader a e := ⟨rfl, rfl, rfl⟩

lemma sameHeader_of_frame {e : Nat}
    (h : ∀ x, e ≤ x → x < e + headerSize → b.pool.memory x = a.pool.memory x) :
    a.SameHeader b e := by
  rw [headerSize] at h
  refine ⟨read32_congr ?_, read32_congr ?_, read32_congr ?_⟩ <;>
    intro x hx hx' <;> apply h <;> simp only [rxField, txField, sendTimeField] at hx hx' <;> omega

/-- Two blocks have no byte in common. -/
lemma blocks_apart {c d : Nat} (h : base + c * memBlockSize ≠ base + d * memBlockSize) :
    base + c * memBlockSize + memBlockSize ≤ base + d * memBlockSize ∨
      base + d * memBlockSize + memBlockSize ≤ base + c * memBlockSize := by
  simp only [memBlockSize] at h ⊢
  omega

/-- What is written inside one block does not change the header of another one. -/
lemma sameHeader_of_block {c d : Nat} (hne : base + c * memBlockSize ≠ base + d * memBlockSize)
    (hframe : ∀ x, x < base + c * memBlockSize ∨ base + c * memBlockSize + memBlockSize ≤ x →
      b.pool.memory x = a.pool.memory x) : a.SameHeader b (base + d * memBlockSize) := by
  apply sameHeader_of_frame
  intro x hx hx'
  apply hframe
  have hsize : headerSize ≤ memBlockSize := by decide
  rcases blocks_apart hne with hd | hd
  · exact .inr (by omega)
  · exact .inl (by omega)

/-- Addressing an envelope writes its receiver and its sender. -/
lemma address_header {pid : UInt32} {e : Nat} (hb : a.address pid e = some b) :
    b.rx e = pid ∧ b.tx e = a.sched.currentPid ∧
      ∀ x, x < e ∨ e + memBlockSize ≤ x → b.pool.memory x = a.pool.memory x := by
  obtain ⟨c, -, rfl⟩ := address_eq_some_iff.mp hb
  refine ⟨?_, read32_write32, ?_⟩
  · have hapart : rxField e + 4 ≤ txField e ∨ txField e + 4 ≤ rxField e := by
      simp only [txField, rxField]
      omega
    exact (read32_write32_of_disjoint hapart).trans read32_write32
  · intro x hx
    have htx : x < txField e ∨ txField e + 4 ≤ x := by
      simp only [memBlockSize, txField] at hx ⊢
      omega
    have hrx : x < rxField e ∨ rxField e + 4 ≤ x := by
      simp only [memBlockSize, rxField] at hx ⊢
      omega
    exact (write32_frame htx).trans (write32_frame hrx)

/-- The operation does not write into the header of the envelope `e`. -/
def Spares (a : Kernel) (e : Nat) : Op → Prop
  | .send _ x | .delayedSend _ x _ | .release x => x ≠ e
  | .store x _ => x < e ∨ e + headerSize ≤ x
  | .uart _ => ∀ c t, a.pool.available = c :: t → a.pool.start c ≠ e
  | _ => True

lemma address_block (hok : a.Ok base r) {pid : UInt32} {e : Nat} (hb : a.address pid e = some b) :
    ∃ c < memBlockCount, e = base + c * memBlockSize := by
  obtain ⟨c, hc, -⟩ := address_eq_some_iff.mp hb
  obtain ⟨hlt, rfl⟩ := hok.pool.lookup_eq_some_iff.mp hc
  exact ⟨c, hlt, hok.pool.start_eq c hlt⟩

lemma type_frame {q : Pool} {x y : Nat} {c : UInt8} (hy : y < x ∨ x + memBlockSize ≤ y) :
    (a.type q x c).pool.memory y = q.memory y := by
  rw [type, Kernel.store]
  simp only [memBlockSize] at hy
  have hmsg : y ≠ msgField x := by
    simp only [msgField]
    omega
  have hrx : y < rxField x ∨ rxField x + 4 ≤ y := by
    simp only [rxField]
    omega
  have htx : y < txField x ∨ txField x + 4 ≤ y := by
    simp only [txField]
    omega
  exact (Function.update_of_ne hmsg _ _).trans ((write32_frame hrx).trans (write32_frame htx))

lemma type_rx (a : Kernel) (q : Pool) (x : Nat) (c : UInt8) : (a.type q x c).rx x = kcdPid := by
  refine (read32_update_of_disjoint ?_).trans read32_write32
  simp only [rxField, msgField]
  omega

/-- The header of an envelope that is spared stays. -/
theorem Effect.sameHeader (he : a.Effect op reply b) (hok : a.Ok base r) {e : Nat}
    (hblock : ∃ d < memBlockCount, e = base + d * memBlockSize) (hs : a.Spares e op) :
    a.SameHeader b e := by
  obtain ⟨d, -, rfl⟩ := hblock
  cases he with
  | quiet s hq => exact .refl ..
  | sent s hb =>
    obtain ⟨c, -, rfl⟩ := address_block hok hb
    exact sameHeader_of_block hs (address_header hb).2.2
  | delayed hb =>
    obtain ⟨c, -, rfl⟩ := address_block hok hb
    apply sameHeader_of_block hs
    intro x hx
    refine (write32_frame ?_).trans ((address_header hb).2.2 x hx)
    simp only [sendTimeField, memBlockSize] at hx ⊢
    omega
  | received => exact .refl ..
  | granted hp =>
    obtain ⟨c, t, -, -, rfl⟩ := take_cases hp
    exact .refl ..
  | released s hc hx ho =>
    have hstart := hok.pool.start_eq _ (hok.pool.lt_of_mem (q := .usedBlocks) hc)
    obtain rfl := hstart.symm.trans hx
    apply sameHeader_of_block hs
    intro x hx
    apply fill_frame
    rwa [hstart]
  | stored =>
    apply sameHeader_of_frame
    intro x hx hx'
    refine Function.update_of_ne ?_ _ _
    rintro rfl
    rcases hs with hlt | hle <;> omega
  | ticked s hb =>
    have hmv := hok.moves_tick hb
    apply sameHeader_of_frame
    intro x _ _
    rw [withSched_pool, hmv.pool]
  | typedLost hp =>
    obtain ⟨c, t, hav, rfl, rfl⟩ := take_cases hp
    have hc : c ∈ a.pool.list .availableBlocks := by simp [hav]
    have hne := hs c t hav
    rw [hok.pool.start_eq c (hok.pool.lt_of_mem hc)] at hne ⊢
    exact sameHeader_of_block hne fun x hx => type_frame hx
  | typed s hp hb =>
    obtain ⟨c, t, hav, rfl, rfl⟩ := take_cases hp
    have hc : c ∈ a.pool.list .availableBlocks := by simp [hav]
    have hne := hs c t hav
    rw [hok.pool.start_eq c (hok.pool.lt_of_mem hc)] at hne hb ⊢
    exact sameHeader_of_block hne fun x hx => ((address_header hb).2.2 x hx).trans (type_frame hx)

/-- A disciplined operation spares the envelopes in the mailboxes. -/
lemma spares_of_respects (hp : a.Permits op) (hr : a.Respects op) {e : Nat}
    (he : e ∈ a.mailbox ++ a.delayed) : a.Spares e op := by
  cases op with
  | send pid x =>
    rintro rfl
    exact hp.2.2 he
  | delayedSend pid x delay =>
    rintro rfl
    exact hp.2.2 he
  | release x =>
    rintro rfl
    exact hr he
  | store x v => exact hr e he
  | uart c =>
    rintro d t hav rfl
    exact hp d t hav he
  | _ => trivial

/-! ### The mailboxes agree with the ledger -/

/-- The ledger `l` is right about `a`, where the messages `pending` are in the mailbox. -/
structure Keeps (a : Kernel) (l : Ledger) (pending : List Message) : Prop where
  ticks : a.ticks = UInt32.ofNat l.now
  mailbox : a.mailbox = pending.map Message.envelope
  delayed : a.delayed = l.waiting.map Message.envelope
  header : ∀ m ∈ pending ++ l.waiting,
    a.rx m.envelope = m.receiver ∧ a.tx m.envelope = m.sender
  sendTime : ∀ m ∈ l.waiting, ∃ d, m.delay = some d ∧
    a.sendTime m.envelope = d + UInt32.ofNat m.sentAt
  fifo : ∀ p, l.postedTo p
    = l.receivedBy p ++ (pending.filter (·.receiver = p)).map Message.receipt

namespace Keeps

lemma empty (hm : a.mailbox = []) (hd : a.delayed = []) (ht : a.ticks = 0) :
    a.Keeps .empty [] where
  ticks := ht
  mailbox := hm
  delayed := hd
  header := by simp [Ledger.empty]
  sendTime := by simp [Ledger.empty]
  fifo := by simp [Ledger.empty, Ledger.postedTo, Ledger.receivedBy]

lemma mem_mailboxes (h : a.Keeps l pending) {m : Message} (hm : m ∈ pending ++ l.waiting) :
    m.envelope ∈ a.mailbox ++ a.delayed := by
  rw [h.mailbox, h.delayed, ← List.map_append]
  exact List.mem_map_of_mem hm

lemma header_of_same (h : a.Keeps l pending) {m : Message} (hm : m ∈ pending ++ l.waiting)
    (hs : a.SameHeader b m.envelope) : b.rx m.envelope = m.receiver ∧ b.tx m.envelope = m.sender :=
  ⟨hs.1.trans (h.header m hm).1, hs.2.1.trans (h.header m hm).2⟩

/-- Nothing happens to the messages. -/
lemma same (h : a.Keeps l pending) (hm : b.mailbox = a.mailbox) (hd : b.delayed = a.delayed)
    (ht : b.ticks = a.ticks) (hh : ∀ e ∈ a.mailbox ++ a.delayed, a.SameHeader b e) :
    b.Keeps l pending where
  ticks := ht.trans h.ticks
  mailbox := hm.trans h.mailbox
  delayed := hd.trans h.delayed
  header m hm := h.header_of_same hm (hh _ (h.mem_mailboxes hm))
  sendTime m hm := by
    obtain ⟨d, hd, hs⟩ := h.sendTime m hm
    exact ⟨d, hd, (hh _ (h.mem_mailboxes (by simp [hm]))).2.2.trans hs⟩
  fifo := h.fifo

/-- The message `m` is put into the mailbox. -/
lemma post (h : a.Keeps l pending) (hm : b.mailbox = a.mailbox ++ [m.envelope])
    (hd : b.delayed = a.delayed) (ht : b.ticks = a.ticks)
    (hh : ∀ e ∈ a.mailbox ++ a.delayed, a.SameHeader b e)
    (hrx : b.rx m.envelope = m.receiver) (htx : b.tx m.envelope = m.sender) :
    b.Keeps { l with posted := l.posted ++ [m] } (pending ++ [m]) where
  ticks := ht.trans h.ticks
  mailbox := by simp [hm, h.mailbox]
  delayed := hd.trans h.delayed
  header x hx := by
    rw [List.append_assoc, List.mem_append, List.mem_append, List.mem_singleton] at hx
    rcases hx with hx | rfl | hx
    · exact h.header_of_same (by simp [hx]) (hh _ (h.mem_mailboxes (by simp [hx])))
    · exact ⟨hrx, htx⟩
    · exact h.header_of_same (by simp [hx]) (hh _ (h.mem_mailboxes (by simp [hx])))
  sendTime x hx := by
    obtain ⟨d, hd, hs⟩ := h.sendTime x hx
    exact ⟨d, hd, (hh _ (h.mem_mailboxes (by simp [hx]))).2.2.trans hs⟩
  fifo p := by
    have hp := h.fifo p
    simp only [Ledger.postedTo, Ledger.receivedBy] at hp ⊢
    rw [List.filter_append, List.map_append, hp, List.filter_append, List.map_append,
      List.append_assoc]

/-- The message `m` is put into the delayed mailbox. -/
lemma wait (h : a.Keeps l pending) {acc : List Message} (hm : b.mailbox = a.mailbox)
    (hd : b.delayed = a.delayed ++ [m.envelope]) (ht : b.ticks = a.ticks)
    (hh : ∀ e ∈ a.mailbox ++ a.delayed, a.SameHeader b e)
    (hrx : b.rx m.envelope = m.receiver) (htx : b.tx m.envelope = m.sender)
    (htime : ∃ d, m.delay = some d ∧ b.sendTime m.envelope = d + UInt32.ofNat m.sentAt) :
    b.Keeps { l with accepted := acc, waiting := l.waiting ++ [m] } pending where
  ticks := ht.trans h.ticks
  mailbox := hm.trans h.mailbox
  delayed := by simp [hd, h.delayed]
  header x hx := by
    rw [← List.append_assoc, List.mem_append, List.mem_singleton] at hx
    rcases hx with hx | rfl
    · exact h.header_of_same hx (hh _ (h.mem_mailboxes hx))
    · exact ⟨hrx, htx⟩
  sendTime x hx := by
    rcases List.mem_append.mp hx with hx | hx
    · obtain ⟨d, hd, hs⟩ := h.sendTime x hx
      exact ⟨d, hd, (hh _ (h.mem_mailboxes (by simp [hx]))).2.2.trans hs⟩
    · rwa [List.mem_singleton.mp hx]
  fifo := h.fifo

/-- The first message to the running process is received. -/
lemma receive (h : a.Keeps l pending) {i e : Nat} {p : UInt32} (hi : a.mailbox[i]? = some e)
    (hrx : a.rx e = p) (hfirst : ∀ j < i, ∀ x, a.mailbox[j]? = some x → a.rx x ≠ p) :
    Keeps { a with mailbox := a.mailbox.eraseIdx i }
      { l with received := l.received ++ [⟨e, a.tx e, p⟩] } (pending.eraseIdx i) := by
  rw [h.mailbox, List.getElem?_map] at hi
  obtain ⟨m, hm, rfl⟩ := Option.map_eq_some_iff.mp hi
  have hmem : ∀ x ∈ pending, x ∈ pending ++ l.waiting := fun x hx => by simp [hx]
  obtain ⟨hmrx, hmtx⟩ := h.header m (hmem m (List.mem_of_getElem? hm))
  refine ⟨h.ticks, ?_, h.delayed, ?_, h.sendTime, ?_⟩
  · rw [h.mailbox, List.eraseIdx_map]
  · intro x hx
    apply h.header x
    rcases List.mem_append.mp hx with hx | hx
    · exact hmem x (List.mem_of_mem_eraseIdx hx)
    · simp [hx]
  · intro q
    have hq := h.fifo q
    simp only [Ledger.postedTo, Ledger.receivedBy] at hq ⊢
    rw [hq, List.filter_append]
    by_cases hqp : p = q
    · -- the message is the first one to `q`
      have hcons := filter_eraseIdx_of_first (fun x : Message => x.receiver = q) hm
        (by simp [← hmrx, hrx, hqp]) fun j hj x hx => by
          have hx' := hfirst j hj x.envelope (by rw [h.mailbox, List.getElem?_map, hx]; rfl)
          rw [(h.header x (hmem x (List.mem_of_getElem? hx))).1, hqp] at hx'
          simpa using hx'
      rw [hcons, List.map_cons, List.filter_singleton]
      simp [hqp, Message.receipt, hmtx, ← hmrx, hrx]
    · have hnot := filter_eraseIdx_of_not (fun x : Message => x.receiver = q) hm
        (by simpa [← hmrx, hrx] using hqp)
      rw [hnot, List.filter_singleton]
      simp [hqp]

/-- A tick moves the messages in the envelopes `new`. -/
lemma tick (h : a.Keeps l pending) {new : List Nat} (hnd : a.delayed.Nodup)
    (hmv : Moves { a with ticks := a.ticks + 1 } new b) :
    b.Keeps (l.record ⟨p, .timer, .moved new⟩) (pending ++ l.moved new) := by
  have hstay : b.delayed = a.delayed.filter (· ∉ new) := hmv.delayed_eq hnd
  have hsame : ∀ e, a.SameHeader b e := by
    intro e
    simp [SameHeader, Kernel.rx, Kernel.tx, Kernel.sendTime, hmv.pool]
  have hnew : ∀ x ∈ new, x ∈ l.waiting.map Message.envelope := by
    intro x hx
    rw [← h.delayed]
    exact hmv.delayed.subset (List.mem_append_left _ hx)
  refine ⟨?_, ?_, ?_, ?_, ?_, ?_⟩
  · rw [hmv.ticks, h.ticks]
    simp [Ledger.record, UInt32.ofNat_add]
  · rw [hmv.mailbox, List.map_append, Ledger.map_moved hnew, h.mailbox]
  · rw [hstay, h.delayed, List.filter_map]
    rfl
  · intro x hx
    simp only [Ledger.record, List.mem_append, List.mem_filter] at hx
    apply h.header_of_same _ (hsame _)
    rcases hx with (hx | hx) | hx
    · simp [hx]
    · simp [(Ledger.mem_moved hx).1]
    · simp [hx.1]
  · intro x hx
    obtain ⟨d, hd, hs⟩ := h.sendTime x (List.mem_filter.mp hx).1
    exact ⟨d, hd, (hsame _).2.2.trans hs⟩
  · intro q
    have hq := h.fifo q
    simp only [Ledger.record, Ledger.postedTo, Ledger.receivedBy] at hq ⊢
    rw [List.filter_append, List.map_append, hq, List.filter_append, List.map_append,
      List.append_assoc]

/-- Every disciplined operation keeps the ledger right. -/
theorem step (h : a.Keeps l pending) (hpost : a.Posted base) (hok : a.Ok base r)
    (hp : a.Permits op) (hr : a.Respects op) (htype : op.isUart = false)
    (he : a.Effect op reply b) :
    ∃ pending', b.Keeps (l.record ⟨a.sched.currentPid, op, reply⟩) pending' := by
  have hsame : ∀ e ∈ a.mailbox ++ a.delayed, a.SameHeader b e := by
    intro e hmem
    exact he.sameHeader hok (hpost.block e hmem) (spares_of_respects hp hr hmem)
  cases he with
  | quiet s hq =>
    rw [Ledger.record_of_isQuiet l hq]
    exact ⟨pending, h.same rfl rfl rfl hsame⟩
  | sent s hb =>
    obtain ⟨-, ⟨c, hc, rfl⟩, hnot⟩ := hp
    have hcl := hok.pool.lt_of_mem (q := .usedBlocks) hc
    obtain ⟨hmail, hdel, hticks, -⟩ := address_fields hb
    obtain ⟨hrx, htx, -⟩ := address_header hb
    rw [hok.pool.start_eq c hcl] at hnot
    have hlen := hpost.length_lt hcl hnot
    refine ⟨_, h.post ?_ hdel hticks hsame hrx htx⟩
    have hroom : a.mailbox.length < memBlockCount := by omega
    simp [Kernel.post, storeIn, hmail, hroom]
  | delayed hb =>
    obtain ⟨-, ⟨c, hc, rfl⟩, hnot⟩ := hp
    have hcl := hok.pool.lt_of_mem (q := .usedBlocks) hc
    obtain ⟨hmail, hdel, hticks, -⟩ := address_fields hb
    obtain ⟨hrx, htx, -⟩ := address_header hb
    rw [hok.pool.start_eq c hcl] at hnot
    have hlen := hpost.length_lt hcl hnot
    refine ⟨_, h.wait hmail ?_ hticks hsame ?_ ?_ ?_⟩
    · have hroom : a.delayed.length < memBlockCount := by omega
      simp [Kernel.postDelayed, storeIn, hdel, hroom]
    · refine (read32_write32_of_disjoint ?_).trans hrx
      simp only [sendTimeField, rxField]
      omega
    · refine (read32_write32_of_disjoint ?_).trans htx
      simp only [sendTimeField, txField]
      omega
    · refine ⟨_, rfl, ?_⟩
      rw [← h.ticks]
      exact read32_write32
  | received he hrx hfirst => exact ⟨_, h.receive he hrx hfirst⟩
  | granted ht => exact ⟨pending, h.same rfl rfl rfl hsame⟩
  | released s hc hx ho => exact ⟨pending, h.same rfl rfl rfl hsame⟩
  | stored => exact ⟨pending, h.same rfl rfl rfl hsame⟩
  | ticked s hb =>
    have hmv := hok.moves_tick hb
    have ht := h.tick (p := a.sched.currentPid) hpost.nodup.of_append_right hmv
    exact ⟨_, ht.same rfl rfl rfl fun e _ => .refl _ e⟩
  | typedLost hp' => cases htype
  | typed s hp' hb => cases htype

end Keeps

end Spec.Kernel

end RtxKernel
