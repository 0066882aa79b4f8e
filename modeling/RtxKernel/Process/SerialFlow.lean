import RtxKernel.Process.Serial

/-!
# The characters on their way to the port

What every step of the system preserves (`Flow`), and that the port has been given a part of the texts of the
messages, from their beginning and in the order of the messages (`serial_in_order`).
-/

namespace RtxKernel

namespace Spec.Kernel

variable {a b : Kernel} {base : Nat} {r : PcbPtr} {op : Op} {reply : Reply} {c : BlockPtr} {e : Nat}
  {p : UInt32} {crt : Crt} {uart : Uart} {output : List UInt8} {log : List (List UInt8)}

/-- What the others see to, in the abstract kernel -/
structure SerialFree (a : Kernel) (op : Op) : Prop extends a.Outside serialPids op where
  sends : ∀ pid e, (op = .send pid e ∨ ∃ delay, op = .delayedSend pid e delay) →
    pid ≠ uartPid ∧ (pid = crtPid → Ends a.pool.memory (msgField e) msgSize)

def entered (a : Kernel) : Op → Reply → List (List UInt8)
  | .send pid e, .code c => if pid = crtPid ∧ c = 0 then [text a.pool.memory e] else []
  | .timer, .moved es => (es.filter fun e => a.rx e = crtPid).map (text a.pool.memory)
  | _, _ => []

/-! ### Where the characters are -/

/-- The rest of the message that the CRT process prints -/
def crtRest (a : Kernel) : Crt → List UInt8
  | .waiting => []
  | .printing msg i | .filling msg i _ _ => textFrom a.pool.memory (msgSize - i) (msgField msg + i)

/-- The character in the hand of the UART process -/
def uartHand (a : Kernel) : Uart → List UInt8
  | .waiting => []
  | .received msg => [a.pool.memory (msgField msg)]
  | .writing charOut => [charOut]

/-- The characters in the mailbox for the UART process -/
def characters (a : Kernel) : List UInt8 :=
  (a.mailTo uartPid).map fun e => a.pool.memory (msgField e)

/-- The texts in the mailbox for the CRT process -/
def texts (a : Kernel) : List (List UInt8) := (a.mailTo crtPid).map (text a.pool.memory)

/-- The message `msg` is that of the CRT process, which is at its character `i`. -/
structure Prints (a : Kernel) (msg i : Nat) : Prop where
  held : a.Held msg crtPid
  ends : Ends a.pool.memory (msgField msg + i) (msgSize - i)

/-- The block `x` is for the character `i` of `msg`, and `j` bytes are written into it. -/
structure Fills (a : Kernel) (msg i x j : Nat) : Prop where
  held : a.Held x crtPid
  ne : x ≠ msg
  char : a.pool.memory (msgField msg + i) ≠ 0
  le : j ≤ 9
  full : j = 9 → a.pool.memory (msgField x) = a.pool.memory (msgField msg + i)

def CrtHolds (a : Kernel) : Crt → Prop
  | .waiting => True
  | .printing msg i => a.Prints msg i
  | .filling msg i x j => a.Prints msg i ∧ a.Fills msg i x j

def UartHolds (a : Kernel) : Uart → Prop
  | .received msg => a.Held msg uartPid
  | _ => True

/-- What holds in every state: what was written, and the characters on their way, are the texts of the
messages. -/
structure Flow (a : Kernel) (crt : Crt) (uart : Uart) (output : List UInt8) (log : List (List UInt8)) :
    Prop where
  live : ∃ p ∈ a.sched.live, a.sched.pid p = uartPid
  delayed : ∀ e ∈ a.delayed, a.rx e ≠ uartPid
  ends : ∀ e ∈ a.mailbox ++ a.delayed, a.rx e = crtPid → Ends a.pool.memory (msgField e) msgSize
  crtHolds : a.CrtHolds crt
  uartHolds : a.UartHolds uart
  flow : output ++ (a.uartHand uart ++ (a.characters ++ (a.crtRest crt ++ a.texts.flatten))) =
    log.flatten

/-! ### What is kept -/

lemma Kept.msg (h : a.Kept b e) {i : Nat} (hi : i < msgSize) :
    b.pool.memory (msgField e + i) = a.pool.memory (msgField e + i) := by
  simp only [msgSize] at hi
  apply h
  · rw [msgField]
    omega
  · rw [msgField, memBlockSize]
    omega

lemma Kept.textFrom (h : a.Kept b e) (i : Nat) :
    textFrom b.pool.memory (msgSize - i) (msgField e + i) =
      textFrom a.pool.memory (msgSize - i) (msgField e + i) := by
  apply textFrom_congr
  intro x hx hx'
  obtain ⟨k, rfl⟩ := Nat.exists_eq_add_of_le hx
  rw [Nat.add_assoc]
  exact h.msg (by omega)

lemma Kept.text (h : a.Kept b e) : text b.pool.memory e = text a.pool.memory e := h.textFrom 0

lemma Kept.ends (h : a.Kept b e) {i : Nat} (hm : Ends a.pool.memory (msgField e + i) (msgSize - i)) :
    Ends b.pool.memory (msgField e + i) (msgSize - i) := by
  apply hm.congr
  intro x hx hx'
  obtain ⟨k, rfl⟩ := Nat.exists_eq_add_of_le hx
  rw [Nat.add_assoc]
  exact h.msg (by omega)

lemma Prints.kept {msg i : Nat} (h : a.Prints msg i) (hheld : b.Held msg crtPid) (hk : a.Kept b msg) :
    b.Prints msg i := ⟨hheld, hk.ends h.ends⟩

lemma Prints.lt {msg i : Nat} (h : a.Prints msg i) : i < msgSize := by
  have hpos := h.ends.pos
  omega

/-- The character at which the CRT process is -/
lemma Prints.char {msg i : Nat} (h : a.Prints msg i) (hk : a.Kept b msg) :
    b.pool.memory (msgField msg + i) = a.pool.memory (msgField msg + i) := hk.msg h.lt

lemma Fills.kept {msg i x j : Nat} (h : a.Fills msg i x j) (hp : a.Prints msg i)
    (hheld : b.Held x crtPid) (hk : a.Kept b x) (hkm : a.Kept b msg) : b.Fills msg i x j where
  held := hheld
  ne := h.ne
  char := by
    rw [hp.char hkm]
    exact h.char
  le := h.le
  full := by
    intro hj
    rw [hp.char hkm, ← h.full hj]
    exact hk.msg (i := 0) (by decide)

lemma characters_congr (hm : b.mailTo uartPid = a.mailTo uartPid)
    (hk : ∀ e ∈ a.mailTo uartPid, a.Kept b e) : b.characters = a.characters := by
  rw [characters, characters, hm]
  apply List.map_congr_left
  intro e he
  exact (hk e he).msg (i := 0) (by decide)

lemma texts_congr {l : List Nat} (hk : ∀ e ∈ l, a.Kept b e) :
    l.map (text b.pool.memory) = l.map (text a.pool.memory) := by
  apply List.map_congr_left
  intro e he
  exact (hk e he).text

/-- The state of the CRT process is kept by what spares its envelopes. -/
lemma crt_kept {S : Nat → UInt32 → Prop} (hk : a.Preserves b S) (hS : ∀ x, a.Held x crtPid → S x crtPid)
    (hcrt : a.CrtHolds crt) : b.CrtHolds crt ∧ b.crtRest crt = a.crtRest crt := by
  cases crt with
  | waiting => exact ⟨trivial, rfl⟩
  | printing msg i =>
    obtain ⟨hheld, hkm⟩ := hk.held msg crtPid hcrt.held (hS msg hcrt.held)
    exact ⟨hcrt.kept hheld hkm, hkm.textFrom i⟩
  | filling msg i x j =>
    obtain ⟨hp, hx⟩ := hcrt
    obtain ⟨hheld, hkm⟩ := hk.held msg crtPid hp.held (hS msg hp.held)
    obtain ⟨hheldx, hkx⟩ := hk.held x crtPid hx.held (hS x hx.held)
    exact ⟨⟨hp.kept hheld hkm, hx.kept hp hheldx hkx hkm⟩, hkm.textFrom i⟩

/-- The state of the UART process is kept by what spares its envelopes. -/
lemma uart_kept {S : Nat → UInt32 → Prop} (hk : a.Preserves b S)
    (hS : ∀ x, a.Held x uartPid → S x uartPid) (huart : a.UartHolds uart) :
    b.UartHolds uart ∧ b.uartHand uart = a.uartHand uart := by
  cases uart with
  | received msg =>
    obtain ⟨hheld, hkm⟩ := hk.held msg uartPid huart (hS msg huart)
    refine ⟨hheld, ?_⟩
    rw [uartHand, uartHand]
    exact congrArg (fun c => [c]) (hkm.msg (i := 0) (by decide))
  | waiting => exact ⟨trivial, rfl⟩
  | writing c => exact ⟨trivial, rfl⟩

/-! ### What the others do -/

lemma entered_of_isQuiet (h : op.isQuiet reply = true) : a.entered op reply = [] := by
  cases op with
  | send pid e =>
    cases reply with
    | code c =>
      have hc : c ≠ 0 := by simpa [Op.isQuiet] using h
      rw [entered, if_neg fun h => hc h.2]
    | _ => rfl
  | timer => cases h
  | _ => rfl

lemma entered_send {pid : UInt32} (hrx : b.rx e = pid)
    (htext : text b.pool.memory e = text a.pool.memory e) : a.entered (.send pid e) (.code 0) =
      ([e].filter fun x => b.rx x = crtPid).map (text b.pool.memory) := by
  rw [entered]
  by_cases hcrt : pid = crtPid
  · rw [if_pos ⟨hcrt, rfl⟩, List.filter_cons_of_pos (by simp [hrx, hcrt]), List.filter_nil,
      List.map_singleton, htext]
  · rw [if_neg fun h => hcrt h.1, List.filter_cons_of_neg (by simp [hrx, hcrt]), List.filter_nil,
      List.map_nil]

lemma entered_timer {es : List Nat} (hrx : ∀ x ∈ es, b.rx x = a.rx x)
    (htext : ∀ x ∈ es, text b.pool.memory x = text a.pool.memory x) : a.entered .timer (.moved es) =
      (es.filter fun x => b.rx x = crtPid).map (text b.pool.memory) := by
  rw [entered]
  have hfilter : (es.filter fun x => b.rx x = crtPid) = es.filter fun x => a.rx x = crtPid := by
    apply List.filter_congr
    intro x hx
    rw [hrx x hx]
  rw [hfilter]
  apply List.map_congr_left
  intro x hx
  exact (htext x (List.mem_of_mem_filter hx)).symm

/-- The texts that enter are those of the messages that come into the mailbox. -/
lemma entered_eq (he : a.Effect op reply b) (hrx : ∀ x ∈ a.delayed, b.rx x = a.rx x) (hok : a.Ok base r) :
    a.entered op reply =
      ((op.arrivals reply).filter fun e => b.rx e = crtPid).map (text b.pool.memory) := by
  cases he with
  | quiet s hq =>
    rw [entered_of_isQuiet hq, Op.arrivals_of_isQuiet hq, List.filter_nil, List.map_nil]
  | @sent pid e b' s hb hne =>
    rw [Op.arrivals, if_pos rfl]
    apply entered_send
    · exact (address_header hb).1
    · apply textFrom_congr
      intro x hx _
      refine address_content hb (Nat.le_trans ?_ hx)
      exact Nat.add_le_add_left (by decide) e
  | ticked s hb =>
    have hmv := hok.moves_tick hb
    rw [Op.arrivals]
    apply entered_timer
    · intro x hx
      exact hrx x (hmv.delayed.mem_iff.mp (List.mem_append_left _ hx))
    · intro x hx
      rw [withSched_pool, hmv.pool]
  | _ => rfl

lemma crt_serial : crtPid ∈ serialPids := List.mem_cons_self

lemma uart_serial : uartPid ∈ serialPids := List.mem_cons_of_mem _ List.mem_cons_self

/-- What an interrupt or another process does -/
theorem Flow.free (h : a.Flow crt uart output log) (hok : a.Ok base r) (hpost : a.Posted base)
    (hown : a.MailOwned) (hp : a.Permits op) (hr : a.Respects op) (hf : a.SerialFree op)
    (hy : a.call op = some (reply, b)) (he : a.Effect op reply b) :
    b.Flow crt uart output (log ++ a.entered op reply) := by
  have hk := hf.preserves hok hown hp hr he
  have hmail : ∀ p ∈ serialPids,
      b.mailTo p = a.mailTo p ++ (op.arrivals reply).filter fun e => b.rx e = p := by
    intro p hps
    refine he.mailTo hok hpost hp hk.rx ?_ ?_
    · rintro rfl
      exact absurd hps (by decide)
    · rintro rfl - hcur
      exact hf.caller.elim (by decide) fun hnot => hnot (hcur ▸ hps)
  have huartmail : b.mailTo uartPid = a.mailTo uartPid := by
    rw [hmail uartPid uart_serial, List.filter_eq_nil_iff.mpr, List.append_nil]
    intro x hx
    rw [decide_eq_true_iff]
    rcases he.mem_arrivals hok hx with ⟨pid, hop, hpid⟩ | ⟨hd, -⟩
    · rw [hpid]
      exact (hf.sends pid x (.inl hop)).1
    · rw [hk.rx x (List.mem_append_right _ hd)]
      exact h.delayed x hd
  have hmailTo := fun p hps => hk.mailTo (g := serialPids) (p := p) hps
  obtain ⟨hcrt, hrest⟩ := crt_kept hk (fun _ _ => crt_serial) h.crtHolds
  obtain ⟨huart, hhand⟩ := uart_kept hk (fun _ _ => uart_serial) h.uartHolds
  refine ⟨hf.live hok hy uart_serial h.live, ?_, ?_, hcrt, huart, ?_⟩
  · intro x hx
    rcases he.mem_delayed hok hx with hd | ⟨pid, delay, hop, hpid⟩
    · rw [hk.rx x (List.mem_append_right _ hd)]
      exact h.delayed x hd
    · rw [hpid]
      exact (hf.sends pid x (.inr ⟨delay, hop⟩)).1
  · intro x hx hrx
    have hsent : ∀ pid, (op = .send pid x ∨ ∃ delay, op = .delayedSend pid x delay) → b.rx x = pid →
        Ends b.pool.memory (msgField x) msgSize := by
      intro pid hop hpid
      apply ((hf.sends pid x hop).2 (hpid.symm.trans hrx)).congr
      intro y hy _
      apply he.content ⟨pid, hop⟩
      exact Nat.le_trans (by simp only [headerSize, msgField]; omega) hy
    rcases he.mem_mail hok hx with hold | ⟨pid, hop, hpid⟩ | ⟨pid, delay, hop, hpid⟩ | ⟨d, -, -, hkcd⟩
    · rw [hk.rx x hold] at hrx
      exact (hk.kept x hold (hrx ▸ crt_serial)).ends (i := 0) (h.ends x hold hrx)
    · exact hsent pid (.inl hop) hpid
    · exact hsent pid (.inr ⟨delay, hop⟩) hpid
    · rw [hkcd] at hrx
      exact absurd hrx (by decide)
  · have hent := entered_eq he (fun x hx => hk.rx x (List.mem_append_right _ hx)) hok
    have hchars := characters_congr huartmail (hmailTo uartPid uart_serial)
    have htexts : b.texts = a.texts ++ a.entered op reply := by
      rw [texts, hmail crtPid crt_serial, List.map_append, texts_congr (hmailTo crtPid crt_serial), hent,
        texts]
    rw [hhand, hrest, hchars, htexts, List.flatten_append, List.flatten_append, ← h.flow]
    simp only [List.append_assoc]

/-! ### What the two processes do -/

namespace Flow

variable {crt' : Crt} {uart' : Uart} {output' : List UInt8} {S : Nat → UInt32 → Prop}

/-- A step of one of the two processes that takes nothing out of the delayed mailbox -/
lemma of_own (h : a.Flow crt uart output log) (hok : a.Ok base r) (hy : a.call op = some (reply, b))
    (hop : op ≠ .terminate) (hk : a.Preserves b S) (hS : ∀ x ∈ a.mailbox ++ a.delayed, S x (a.rx x))
    (hm : ∀ x ∈ b.mailbox, x ∈ a.mailbox ∨ b.rx x = uartPid) (hd : b.delayed = a.delayed)
    (hcrt : b.CrtHolds crt') (huart : b.UartHolds uart')
    (hflow : output' ++ (b.uartHand uart' ++ (b.characters ++ (b.crtRest crt' ++ b.texts.flatten))) =
      output ++ (a.uartHand uart ++ (a.characters ++ (a.crtRest crt ++ a.texts.flatten)))) :
    b.Flow crt' uart' output' log where
  live := by
    obtain ⟨p, hpl, hpid⟩ := h.live
    obtain ⟨hpl', hpid'⟩ := hok.live_step hy hpl fun hterm => absurd hterm hop
    exact ⟨p, hpl', hpid'.trans hpid⟩
  delayed := by
    intro x hx
    rw [hd] at hx
    rw [hk.rx x (List.mem_append_right _ hx)]
    exact h.delayed x hx
  ends := by
    intro x hx hrx
    have hold : x ∈ a.mailbox ++ a.delayed → Ends b.pool.memory (msgField x) msgSize := by
      intro hx
      rw [hk.rx x hx] at hrx
      exact (hk.kept x hx (hS x hx)).ends (i := 0) (h.ends x hx hrx)
    rw [hd] at hx
    rcases List.mem_append.mp hx with hx | hx
    · rcases hm x hx with hx | hx
      · exact hold (List.mem_append_left _ hx)
      · rw [hx] at hrx
        cases hrx
    · exact hold (List.mem_append_right _ hx)
  crtHolds := hcrt
  uartHolds := huart
  flow := hflow.trans h.flow

/-- With the mailboxes as they were, the characters and texts in them are the same. -/
lemma own_same (hk : a.Preserves b S) (hS : ∀ x ∈ a.mailbox ++ a.delayed, S x (a.rx x))
    (hm : b.mailbox = a.mailbox) : b.characters = a.characters ∧ b.texts = a.texts := by
  have hmail : ∀ p, b.mailTo p = a.mailTo p := by
    intro p
    have happ := mailTo_append (p := p) (hm.trans (List.append_nil _).symm)
      fun x hx => hk.rx x (List.mem_append_left _ hx)
    rwa [List.filter_nil, List.append_nil] at happ
  have hkept : ∀ p, ∀ x ∈ a.mailTo p, a.Kept b x := by
    intro p x hx
    have hx := List.mem_append_left a.delayed (mem_mailTo.mp hx).1
    exact hk.kept x hx (hS x hx)
  refine ⟨characters_congr (hmail uartPid) (hkept uartPid), ?_⟩
  rw [texts, hmail, texts_congr (hkept crtPid), texts]

end Flow

/-! ### The program of the CRT process -/

lemma stores_lt {x j : Nat} {v : UInt8} (hj : j < 9) : ∃ y w, (Crt.stores x v)[j]? = some (y, w) ∧
    x ≤ y ∧ y < x + memBlockSize ∧ (j = 8 → y = msgField x ∧ w = v) := by
  have hin : ∀ y ∈ (Crt.stores x v).map Prod.fst, x ≤ y ∧ y < x + memBlockSize := by
    intro y hy
    simp only [Crt.stores, wordBytes, txField, rxField, msgField, List.map_append, List.map_cons,
      List.map_nil, List.mem_append, List.mem_cons, List.not_mem_nil, or_false] at hy
    simp only [memBlockSize]
    omega
  have hlen : (Crt.stores x v).length = 9 := rfl
  obtain ⟨⟨y, w⟩, hget⟩ : ∃ z, (Crt.stores x v)[j]? = some z :=
    ⟨_, List.getElem?_eq_getElem (hlen ▸ hj)⟩
  have hmem : y ∈ (Crt.stores x v).map Prod.fst :=
    List.mem_map.mpr ⟨(y, w), List.mem_of_getElem? hget, rfl⟩
  refine ⟨y, w, hget, (hin y hmem).1, (hin y hmem).2, ?_⟩
  rintro rfl
  exact Prod.mk.inj (Option.some.inj hget).symm

/-- What the process does with the block for a character -/
lemma worksAt_filling {m : Memory} {msg i x j : Nat} (hj : j ≤ 9) :
    (Crt.op m (.filling msg i x j)).WorksAt (some x) := by
  rcases Nat.lt_or_eq_of_le hj with hlt | rfl
  · obtain ⟨y, w, hget, hy, hy', -⟩ := stores_lt (x := x) (v := m (msgField msg + i)) hlt
    rw [Crt.op, hget]
    exact ⟨x, rfl, hy, hy'⟩
  · exact rfl

/-- The call that the CRT process makes next is a proper one. -/
lemma Flow.crt_proper (h : a.Flow crt uart output log) (hok : a.Ok base r) (hown : a.MailOwned)
    (hcur : a.sched.currentPid = crtPid) :
    a.Permits (crt.op a.pool.memory) ∧ a.Respects (crt.op a.pool.memory) := by
  have hne : a.sched.currentPid ≠ 0 := by
    rw [hcur]
    decide
  have hcrt := h.crtHolds
  cases crt with
  | waiting => exact ⟨hne, trivial⟩
  | printing msg i =>
    rw [Crt.op]
    split_ifs
    · exact ⟨hne, hcrt.held.notMem⟩
    · exact ⟨hne, trivial⟩
  | filling msg i x j =>
    have hw : (Crt.op a.pool.memory (.filling msg i x j)).WorksAt (some x) := worksAt_filling hcrt.2.le
    have hheld : ∀ e, some x = some e → ∃ p, a.Held e p :=
      fun e he => ⟨crtPid, Option.some.inj he ▸ hcrt.2.held⟩
    exact ⟨hw.permits hne hheld, hw.respects hok hown hheld⟩

section Program

variable {msg i x j : Nat}

/-- A text is received. -/
lemma Flow.crt_receive (h : a.Flow .waiting uart output log) (hok : a.Ok base r) (hpost : a.Posted base)
    (hown : a.MailOwned) (hcur : a.sched.currentPid = crtPid) (hp : a.Permits .receive)
    (hy : a.call .receive = some (reply, b)) (he : a.Effect .receive reply b) :
    b.Flow (Crt.next .waiting reply) uart output log := by
  have hw : Op.WorksAt none .receive := trivial
  have hk := hw.preserves_all hok hown hp he
  obtain ⟨hu, hhand⟩ := uart_kept hk (fun _ _ => trivial) h.uartHolds
  generalize hop : Op.receive = op at hy he
  cases he with
  | quiet s hq =>
    have hnext : Crt.next .waiting reply = .waiting := by
      cases reply with
      | envelope e =>
        obtain rfl := hop
        cases e with
        | none => rfl
        | some e => cases hq
      | _ => rfl
    obtain ⟨hchars, htexts⟩ := own_same hk (fun _ _ => trivial) rfl
    rw [hnext]
    refine h.of_own hok hy (by simp [← hop]) hk (fun _ _ => trivial) (fun x => .inl) rfl trivial hu ?_
    rw [hhand, hchars, htexts]
    rfl
  | @received i e hi hrx hfirst =>
    rw [hcur] at hrx hfirst
    have hheld := held_of_received hpost hown hi hrx
    have hmem := List.mem_append_left a.delayed (List.mem_of_getElem? hi)
    have hcrtmail := mailTo_received hi hrx hfirst
    have huartmail : mailTo { a with mailbox := a.mailbox.eraseIdx i } uartPid = a.mailTo uartPid :=
      filter_eraseIdx_of_not (fun x => decide (a.rx x = uartPid)) hi
        (decide_eq_false (by rw [hrx]; decide))
    refine h.of_own hok hy (by simp) hk (fun _ _ => trivial) (fun x hx => .inl (List.mem_of_mem_eraseIdx hx))
      rfl ⟨hheld, h.ends e hmem hrx⟩ hu ?_
    rw [hhand, characters, huartmail, characters, texts, texts, hcrtmail, List.map_cons,
      List.flatten_cons]
    rfl
  | _ => cases hop

/-- Behind the last character the text is released. -/
lemma Flow.crt_release (h : a.Flow (.printing msg i) uart output log) (hok : a.Ok base r)
    (hown : a.MailOwned) (hz : a.pool.memory (msgField msg + i) = 0) (hp : a.Permits (.release msg))
    (hy : a.call (.release msg) = some (reply, b)) (he : a.Effect (.release msg) reply b) :
    b.Flow (Crt.next (.printing msg i) reply) uart output log := by
  have hheld : a.Held msg crtPid := h.crtHolds.held
  have hw : Op.WorksAt (some msg) (.release msg) := rfl
  have hk := hw.preserves_at hok hown hp hheld he
  have hT : ∀ x ∈ a.mailbox ++ a.delayed, x ≠ msg := by
    rintro x hx rfl
    exact hheld.notMem hx
  obtain ⟨hu, hhand⟩ := uart_kept hk (fun _ hy => hy.ne hok hheld (by decide)) h.uartHolds
  have hrest : a.crtRest (.printing msg i) = [] := textFrom_of_zero hz
  obtain ⟨⟨c, y⟩, -, hyy⟩ := Option.map_eq_some_iff.mp hy
  obtain ⟨rfl, rfl⟩ := Prod.mk.inj hyy
  have hdone : y.mailbox = a.mailbox → y.delayed = a.delayed → y.Flow .waiting uart output log := by
    intro hm hd
    obtain ⟨hchars, htexts⟩ := own_same hk hT hm
    refine h.of_own hok hy (by simp) hk hT (fun x hx => .inl (hm ▸ hx)) hd trivial hu ?_
    rw [hhand, hchars, htexts, hrest]
    rfl
  cases he with
  | quiet s hq => exact hdone rfl rfl
  | released s hc hx ho => exact hdone rfl rfl

/-- A message is requested for the next character. -/
lemma Flow.crt_request (h : a.Flow (.printing msg i) uart output log) (hok : a.Ok base r)
    (hown : a.MailOwned) (hcur : a.sched.currentPid = crtPid) (hz : a.pool.memory (msgField msg + i) ≠ 0)
    (hp : a.Permits .request) (hy : a.call .request = some (reply, b)) (he : a.Effect .request reply b) :
    b.Flow (Crt.next (.printing msg i) reply) uart output log := by
  have hw : Op.WorksAt none .request := trivial
  have hk := hw.preserves_all hok hown hp he
  have hmsg : a.Prints msg i := h.crtHolds
  obtain ⟨hu, hhand⟩ := uart_kept hk (fun _ _ => trivial) h.uartHolds
  obtain ⟨hcrt, hrest⟩ := crt_kept hk (fun _ _ => trivial) h.crtHolds
  cases he with
  | quiet s hq =>
    have hnext : Crt.next (.printing msg i) reply = .printing msg i := by
      obtain ⟨hreply, -⟩ := Prod.mk.inj (Option.some.inj hy)
      rw [← hreply] at hq ⊢
      cases hblock : a.requestMemoryBlock.1 with
      | none => rfl
      | some x => rw [hblock] at hq; cases hq
    obtain ⟨hchars, htexts⟩ := own_same hk (fun _ _ => trivial) rfl
    rw [hnext]
    refine h.of_own hok hy (by simp) hk (fun _ _ => trivial) (fun x => .inl) rfl hcrt hu ?_
    rw [hhand, hchars, htexts, hrest]
  | @granted x q hgrant =>
    obtain ⟨hheld, hnew⟩ := held_of_granted hok hown hgrant
    rw [hcur] at hheld
    obtain ⟨hchars, htexts⟩ := own_same hk (fun _ _ => trivial) rfl
    have hkm := (hk.held msg crtPid hmsg.held trivial).2
    refine h.of_own hok hy (by simp) hk (fun _ _ => trivial) (fun x => .inl) rfl
      ⟨hcrt, hheld, ?_, ?_, Nat.zero_le 9, ?_⟩ hu ?_
    · rintro rfl
      exact hnew crtPid hmsg.held
    · rw [hmsg.char hkm]
      exact hz
    · intro hnine
      cases hnine
    · rw [hhand, hchars, htexts]
      exact congrArg _ (congrArg _ (congrArg _ (congrArg (· ++ _) hrest)))

/-- One more byte is written into the message for the character. -/
lemma Flow.crt_fill {y : Nat} {w : UInt8} (h : a.Flow (.filling msg i x j) uart output log)
    (hok : a.Ok base r) (hown : a.MailOwned) (hj : j < 9)
    (hget : (Crt.stores x (a.pool.memory (msgField msg + i)))[j]? = some (y, w))
    (hp : a.Permits (.store y w))
    (hy : a.call (.store y w) = some (reply, b)) (he : a.Effect (.store y w) reply b) :
    b.Flow (Crt.next (.filling msg i x j) reply) uart output log := by
  obtain ⟨hmsg, hx⟩ := h.crtHolds
  obtain ⟨y', w', hget', hle, hlt, hlast⟩ := stores_lt (x := x) (v := a.pool.memory (msgField msg + i)) hj
  obtain ⟨rfl, rfl⟩ := Prod.mk.inj (Option.some.inj (hget.symm.trans hget'))
  obtain ⟨d, hd⟩ := hx.held.owned
  have hw : Op.WorksAt (some x) (.store y w) := ⟨x, rfl, hle, hlt⟩
  have hk := hw.preserves_at hok hown hp hx.held he
  have hT : ∀ e ∈ a.mailbox ++ a.delayed, e ≠ x := by
    rintro e hmem rfl
    exact hx.held.notMem hmem
  obtain ⟨hu, hhand⟩ := uart_kept hk (fun _ hy => hy.ne hok hx.held (by decide)) h.uartHolds
  obtain ⟨hheld, hkm⟩ := hk.held msg crtPid hmsg.held hx.ne.symm
  cases he with
  | quiet s hq => cases hq
  | stored =>
    obtain ⟨hchars, htexts⟩ := own_same hk hT rfl
    refine h.of_own hok hy (by simp) hk hT (fun e => .inl) rfl ⟨hmsg.kept hheld hkm,
      ⟨⟨d, hd.used, hd.start, hd.pid⟩, hx.held.notMem⟩, hx.ne, ?_, hj, ?_⟩ hu ?_
    · rw [hmsg.char hkm]
      exact hx.char
    · intro hnine
      obtain ⟨rfl, rfl⟩ := hlast (Nat.succ.inj hnine)
      rw [hmsg.char hkm]
      exact Function.update_self ..
    · rw [hhand, hchars, htexts]
      exact congrArg _ (congrArg _ (congrArg _ (congrArg (· ++ _) (hkm.textFrom i))))

/-- The message for the character is sent. -/
lemma Flow.crt_send (h : a.Flow (.filling msg i x 9) uart output log) (hbase : base ≠ 0)
    (hok : a.Ok base r) (hpost : a.Posted base) (hown : a.MailOwned)
    (hp : a.Permits (.send uartPid x))
    (hy : a.call (.send uartPid x) = some (reply, b)) (he : a.Effect (.send uartPid x) reply b) :
    b.Flow (Crt.next (.filling msg i x 9) reply) uart output log := by
  obtain ⟨hmsg, hx⟩ := h.crtHolds
  obtain ⟨d, hd⟩ := hx.held.owned
  have hw : Op.WorksAt (some x) (.send uartPid x) := rfl
  have hk := hw.preserves_at hok hown hp hx.held he
  have hT : ∀ e ∈ a.mailbox ++ a.delayed, e ≠ x := by
    rintro e hmem rfl
    exact hx.held.notMem hmem
  obtain ⟨hu, hhand⟩ := uart_kept hk (fun _ hy => hy.ne hok hx.held (by decide)) h.uartHolds
  obtain ⟨hheld, hkm⟩ := hk.held msg crtPid hmsg.held hx.ne.symm
  obtain ⟨z, hsend, hz⟩ := Option.map_eq_some_iff.mp hy
  obtain ⟨b', s, hb, rfl⟩ := sendMessage_valid (hx.held.ne_zero hok hbase) (find_of_live hok h.live) hsend
  obtain ⟨rfl, rfl⟩ := Prod.mk.inj hz
  obtain ⟨hmail, hdel, -, -⟩ := address_fields hb
  obtain ⟨hroom, -⟩ := storeIn_mail hok hpost (hd.lt hok) hd.start hx.held.notMem
  have hmailbox : ((b'.post x).withSched s).mailbox = a.mailbox ++ [x] := by
    rw [withSched_mailbox, post, hmail, hroom]
  have hrx : ((b'.post x).withSched s).rx x = uartPid := (address_header hb).1
  have hmailTo : ∀ p, ((b'.post x).withSched s).mailTo p =
      a.mailTo p ++ if uartPid = p then [x] else [] := by
    intro p
    rw [mailTo_append hmailbox fun e he => hk.rx e (List.mem_append_left _ he)]
    by_cases hpid : uartPid = p
    · rw [if_pos hpid, List.filter_cons_of_pos (by simp [hrx, hpid]), List.filter_nil]
    · rw [if_neg hpid, List.filter_cons_of_neg (by simp [hrx, hpid]), List.filter_nil]
  have hkept : ∀ p, ∀ e ∈ a.mailTo p, a.Kept ((b'.post x).withSched s) e := by
    intro p e he
    have he := List.mem_append_left a.delayed (mem_mailTo.mp he).1
    exact hk.kept e he (hT e he)
  have hchar : ((b'.post x).withSched s).pool.memory (msgField x) =
      a.pool.memory (msgField msg + i) := by
    rw [← hx.full rfl]
    exact address_content hb (Nat.add_le_add_left (by decide) x)
  have hchars : ((b'.post x).withSched s).characters =
      a.characters ++ [a.pool.memory (msgField msg + i)] := by
    rw [characters, hmailTo uartPid, if_pos rfl, List.map_append, List.map_singleton, hchar, characters]
    congr 1
    apply List.map_congr_left
    intro e he
    exact (hkept uartPid e he).msg (i := 0) (by decide)
  have htexts : ((b'.post x).withSched s).texts = a.texts := by
    rw [texts, hmailTo crtPid, if_neg (by decide), List.append_nil, texts_congr (hkept crtPid), texts]
  obtain ⟨n, hn⟩ : ∃ n, msgSize - i = n + 1 := Nat.exists_eq_succ_of_ne_zero hmsg.ends.pos.ne'
  have hn' : msgSize - (i + 1) = n := by
    rw [Nat.sub_add_eq, hn, Nat.add_sub_cancel]
  have hrest : a.crtRest (.filling msg i x 9) = a.pool.memory (msgField msg + i) ::
      a.crtRest (.printing msg (i + 1)) := by
    rw [crtRest, crtRest, hn, hn', textFrom_of_ne hx.char, Nat.add_assoc]
  have hmsg' : a.Prints msg (i + 1) := by
    refine ⟨hmsg.held, ?_⟩
    have hends := hmsg.ends
    rw [hn] at hends
    rw [hn', ← Nat.add_assoc]
    exact hends.succ hx.char
  change Flow _ (.printing msg (i + 1)) uart output log
  refine h.of_own hok hy (by simp) hk hT ?_ hdel
    (hmsg'.kept hheld hkm) hu ?_
  · intro e he
    rw [hmailbox, List.mem_append, List.mem_singleton] at he
    rcases he with he | rfl
    · exact .inl he
    · exact .inr hrx
  · rw [hhand, hchars, htexts, hrest, crtRest, crtRest, hkm.textFrom (i + 1)]
    simp only [List.append_assoc, List.cons_append, List.nil_append]

end Program

/-- What the CRT process does -/
theorem Flow.crt_step (h : a.Flow crt uart output log) (hbase : base ≠ 0) (hok : a.Ok base r)
    (hpost : a.Posted base) (hown : a.MailOwned) (hcur : a.sched.currentPid = crtPid)
    (hy : a.call (crt.op a.pool.memory) = some (reply, b))
    (he : a.Effect (crt.op a.pool.memory) reply b) : b.Flow (crt.next reply) uart output log := by
  obtain ⟨hp, -⟩ := h.crt_proper hok hown hcur
  cases crt with
  | waiting => exact h.crt_receive hok hpost hown hcur hp hy he
  | printing msg i =>
    by_cases hz : a.pool.memory (msgField msg + i) = 0
    · have hop : Crt.op a.pool.memory (.printing msg i) = .release msg := by rw [Crt.op, if_pos hz]
      rw [hop] at hp hy he
      exact h.crt_release hok hown hz hp hy he
    · have hop : Crt.op a.pool.memory (.printing msg i) = .request := by rw [Crt.op, if_neg hz]
      rw [hop] at hp hy he
      exact h.crt_request hok hown hcur hz hp hy he
  | filling msg i x j =>
    have hx := h.crtHolds.2
    rcases Nat.lt_or_eq_of_le hx.le with hj | rfl
    · obtain ⟨y, w, hget, -⟩ := stores_lt (x := x) (v := a.pool.memory (msgField msg + i)) hj
      have hop : Crt.op a.pool.memory (.filling msg i x j) = .store y w := by rw [Crt.op, hget]
      rw [hop] at hp hy he
      exact h.crt_fill hok hown hj hget hp hy he
    · exact h.crt_send hbase hok hpost hown hp hy he

/-! ### The program of the UART process -/

section Port

variable {msg : Nat}

lemma Flow.uart_receive (h : a.Flow crt .waiting output log) (hok : a.Ok base r)
    (hpost : a.Posted base) (hown : a.MailOwned) (hcur : a.sched.currentPid = uartPid)
    (hp : a.Permits .receive) (hy : a.call .receive = some (reply, b))
    (he : a.Effect .receive reply b) :
    b.Flow crt (Uart.next a.pool.memory .waiting reply) output log := by
  have hw : Op.WorksAt none .receive := trivial
  have hk := hw.preserves_all hok hown hp he
  obtain ⟨hcrt, hrest⟩ := crt_kept hk (fun _ _ => trivial) h.crtHolds
  generalize hop : Op.receive = op at hy he
  cases he with
  | quiet s hq =>
    have hnext : Uart.next a.pool.memory .waiting reply = .waiting := by
      cases reply with
      | envelope e =>
        obtain rfl := hop
        cases e with
        | none => rfl
        | some e => cases hq
      | _ => rfl
    obtain ⟨hchars, htexts⟩ := own_same hk (fun _ _ => trivial) rfl
    rw [hnext]
    refine h.of_own hok hy (by simp [← hop]) hk (fun _ _ => trivial) (fun x => .inl) rfl hcrt trivial ?_
    rw [hrest, hchars, htexts]
    rfl
  | @received i e hi hrx hfirst =>
    rw [hcur] at hrx hfirst
    have hheld := held_of_received hpost hown hi hrx
    have huartmail := mailTo_received hi hrx hfirst
    have hcrtmail : mailTo { a with mailbox := a.mailbox.eraseIdx i } crtPid = a.mailTo crtPid :=
      filter_eraseIdx_of_not (fun x => decide (a.rx x = crtPid)) hi
        (decide_eq_false (by rw [hrx]; decide))
    change Flow _ crt (.received e) output log
    refine h.of_own hok hy (by simp) hk (fun _ _ => trivial)
      (fun x hx => .inl (List.mem_of_mem_eraseIdx hx)) rfl hcrt hheld ?_
    rw [hrest, texts, hcrtmail, characters, characters, texts, huartmail, List.map_cons]
    rfl
  | _ => cases hop

lemma Flow.uart_release (h : a.Flow crt (.received msg) output log) (hok : a.Ok base r)
    (hown : a.MailOwned) (hp : a.Permits (.release msg)) (hy : a.call (.release msg) = some (reply, b))
    (he : a.Effect (.release msg) reply b) :
    b.Flow crt (Uart.next a.pool.memory (.received msg) reply) output log := by
  have hheld : a.Held msg uartPid := h.uartHolds
  have hw : Op.WorksAt (some msg) (.release msg) := rfl
  have hk := hw.preserves_at hok hown hp hheld he
  have hT : ∀ x ∈ a.mailbox ++ a.delayed, x ≠ msg := by
    rintro x hx rfl
    exact hheld.notMem hx
  obtain ⟨hcrt, hrest⟩ := crt_kept hk (fun _ hy => hy.ne hok hheld (by decide)) h.crtHolds
  obtain ⟨⟨c, y⟩, -, hyy⟩ := Option.map_eq_some_iff.mp hy
  obtain ⟨rfl, rfl⟩ := Prod.mk.inj hyy
  have hdone : y.mailbox = a.mailbox → y.delayed = a.delayed →
      y.Flow crt (.writing (a.pool.memory (msgField msg))) output log := by
    intro hm hd
    obtain ⟨hchars, htexts⟩ := own_same hk hT hm
    refine h.of_own hok hy (by simp) hk hT (fun x hx => .inl (hm ▸ hx)) hd hcrt trivial ?_
    rw [hrest, hchars, htexts]
    rfl
  cases he with
  | quiet s hq => exact hdone rfl rfl
  | released s hc hx ho => exact hdone rfl rfl

/-- The call that the UART process makes next is a proper one. -/
lemma Flow.uart_proper (h : a.Flow crt uart output log) (hcur : a.sched.currentPid = uartPid)
    (hact : uart.act = .inl op) : a.Permits op ∧ a.Respects op := by
  have hne : a.sched.currentPid ≠ 0 := by
    rw [hcur]
    decide
  have huart := h.uartHolds
  cases uart with
  | waiting =>
    obtain rfl := Sum.inl.inj hact
    exact ⟨hne, trivial⟩
  | received msg =>
    obtain rfl := Sum.inl.inj hact
    exact ⟨hne, huart.notMem⟩
  | writing charOut => cases hact

/-- What the UART process does in the kernel -/
theorem Flow.uart_step (h : a.Flow crt uart output log) (hok : a.Ok base r) (hpost : a.Posted base)
    (hown : a.MailOwned) (hcur : a.sched.currentPid = uartPid) (hact : uart.act = .inl op)
    (hy : a.call op = some (reply, b)) (he : a.Effect op reply b) :
    b.Flow crt (uart.next a.pool.memory reply) output log := by
  obtain ⟨hp, -⟩ := h.uart_proper hcur hact
  cases uart with
  | waiting =>
    obtain rfl := Sum.inl.inj hact
    exact h.uart_receive hok hpost hown hcur hp hy he
  | received msg =>
    obtain rfl := Sum.inl.inj hact
    exact h.uart_release hok hown hp hy he
  | writing charOut => cases hact

/-- The character in its hand is written. -/
theorem Flow.write {charOut : UInt8} (h : a.Flow crt (.writing charOut) output log) :
    a.Flow crt .waiting (output ++ [charOut]) log where
  live := h.live
  delayed := h.delayed
  ends := h.ends
  crtHolds := h.crtHolds
  uartHolds := trivial
  flow := by
    rw [← h.flow, List.append_assoc]
    rfl

end Port

end Spec.Kernel

end RtxKernel
