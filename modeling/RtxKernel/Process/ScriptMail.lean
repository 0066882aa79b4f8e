import RtxKernel.Process.ScriptRun

/-!
# The mail of the processes

Where a message in a mailbox comes from (`Origin`): it was typed, or one of the processes has sent it, as it then
was, or one of the others has. Between two of the processes no message is lost, doubled, altered or overtaken
(`Channel`), except that a message to the keyboard decoder may look like one that was typed.
-/

namespace RtxKernel

/-- What the UART interrupt makes of the character `c` while the process `tx` runs -/
def typedMessage (tx : UInt32) (c : UInt8) : IoMessage := ⟨tx, kcdPid, 0, Function.update IoMessage.blank.msg 0 c⟩

namespace Spec.Kernel

variable {a b : Kernel} {base : Nat} {r : PcbPtr} {op : Op} {reply : Reply} {pid : UInt32} {e x : Nat} {c : UInt8}

lemma address_messageAt (hb : a.address pid e = some b) :
    messageAt b.pool.memory e = Send.signed ⟨pid, messageAt a.pool.memory e⟩ a.sched.currentPid := by
  obtain ⟨d, -, rfl⟩ := address_eq_some_iff.mp hb
  exact messageAt_setTx.trans (congrArg (fun m : IoMessage => { m with tx := a.sched.currentPid }) messageAt_setRx)

/-- A message that was sent -/
lemma Effect.messageAt_send (he : a.Effect (.send pid e) (.code 0) b) :
    messageAt b.pool.memory e = Send.signed ⟨pid, messageAt a.pool.memory e⟩ a.sched.currentPid := by
  cases he with
  | quiet s hq => simp [Op.isQuiet] at hq
  | @sent _ _ b' s hb =>
    have hsent := address_messageAt hb
    exact hsent

/-- A message that was delayed -/
lemma Effect.messageAt_delayedSend {delay : UInt32} (he : a.Effect (.delayedSend pid e delay) reply b) :
    b.delayed = a.delayed ∨
      messageAt b.pool.memory e = Send.signed ⟨pid, messageAt a.pool.memory e⟩ a.sched.currentPid := by
  cases he with
  | quiet s hq => exact .inl rfl
  | @delayed _ _ _ b' hb =>
    right
    have hword : ∀ y, y + 4 ≤ sendTimeField e ∨ sendTimeField e + 4 ≤ y →
        read32 (write32 b'.pool.memory (sendTimeField e) (delay + a.ticks)) y = read32 b'.pool.memory y :=
      fun y hy => read32_write32_of_disjoint hy
    rw [← address_messageAt hb]
    refine messageAt_eq (hword _ ?_) (hword _ ?_) (hword _ ?_) ?_
    · simp only [txField, sendTimeField]
      omega
    · simp only [rxField, sendTimeField]
      omega
    · simp only [typeField, sendTimeField]
      omega
    · intro i
      have hframe : write32 b'.pool.memory (sendTimeField e) (delay + a.ticks) (msgField e + i) =
          b'.pool.memory (msgField e + i) := write32_frame (by simp only [msgField, sendTimeField]; omega)
      exact congrArg (fun y => if i < msgSize then y else 0) hframe

/-- A character that was typed -/
lemma type_messageAt {p : Pool} (hfree : a.FreeZero) (hp : a.pool.take a.sched.currentPid = some (x, p)) :
    messageAt (a.type p x c).pool.memory x = typedMessage uartPid c := by
  obtain ⟨d, t, hav, rfl, rfl⟩ := take_cases hp
  have hblank := messageAt_zero (hfree d (by simp [hav]))
  have hmsg : messageAt (Function.update (write32 (write32 a.pool.memory (txField (a.pool.start d)) uartPid)
      (rxField (a.pool.start d)) kcdPid) (msgField (a.pool.start d) + 0) c) (a.pool.start d) =
      typedMessage uartPid c := by
    rw [messageAt_setMsg (by decide), messageAt_setRx, messageAt_setTx, hblank]
    rfl
  exact hmsg

/-- The message of the UART interrupt, which comes in or is lost -/
lemma Effect.messageAt_uart (he : a.Effect (.uart c) reply b) (hfree : a.FreeZero)
    (hx : x ∈ a.comesIn (.uart c) reply) : ∃ tx, messageAt b.pool.memory x = typedMessage tx c := by
  cases he with
  | quiet s hq =>
    rw [comesIn_of_quiet hq] at hx
    cases hx
  | @typedLost y p _ code hp =>
    obtain ⟨d, t, hav, hstart, -⟩ := take_cases hp
    obtain rfl : x = y := hstart ▸ mem_comesIn_uart hav hx
    exact ⟨uartPid, type_messageAt hfree hp⟩
  | @typed y p _ b' s hp hb =>
    obtain ⟨d, t, hav, hstart, -⟩ := take_cases hp
    obtain rfl : x = y := hstart ▸ mem_comesIn_uart hav hx
    have hmsg := (address_messageAt hb).trans
      (congrArg (fun m => Send.signed ⟨kcdPid, m⟩ (a.type p x c).sched.currentPid) (type_messageAt hfree hp))
    exact ⟨_, hmsg⟩

end Spec.Kernel

namespace Scripted

variable {ι : Type} {σ : ι → Type} {p : ∀ i, Process (σ i)} {allowed : ι → Deed → Prop}
  {Fits : ι → List IoMessage → IoMessage → Prop} {J : ∀ i, List IoMessage → σ i → List Deed → Prop}
  {priority : Fin 6 → UInt8} {base : Nat} {k₀ : Kernel} {s t : Scripted σ} {a b : Spec.Kernel} {r r' : PcbPtr}
  {op : Op} {reply : Reply} {x : Action ι} {xs : List (Action ι)} {i j : ι} {m : IoMessage}

/-- A message that may wait in the delayed mailbox: another process has sent it, or one of the processes has delayed
it. -/
inductive Later (p : ∀ i, Process (σ i)) (allowed : ι → Deed → Prop) (m : IoMessage) : Prop
  | other : (∀ i, m.tx ≠ (p i).pid) → Later p allowed m
  | own (i : ι) (call : Send) (delay : UInt32) : m = call.signed (p i).pid → allowed i (.delayed call delay) →
      Later p allowed m

/-- Where a message comes from -/
inductive Origin (p : ∀ i, Process (σ i)) (allowed : ι → Deed → Prop) (m : IoMessage) : Prop
  | typed (tx : UInt32) (c : UInt8) : m = typedMessage tx c → Origin p allowed m
  | own (i : ι) (call : Send) : m = call.signed (p i).pid → allowed i (.sent call) → Origin p allowed m
  | later : Later p allowed m → Origin p allowed m

/-- The messages for the processes that wait in the delayed mailbox -/
def DelayedMail (p : ∀ i, Process (σ i)) (allowed : ι → Deed → Prop) (a : Spec.Kernel) : Prop :=
  ∀ x ∈ a.delayed, ∀ j, a.rx x = (p j).pid → Later p allowed (messageAt a.pool.memory x)

/-- All messages for the processes -/
def AllMail (p : ∀ i, Process (σ i)) (allowed : ι → Deed → Prop) (l : List IoMessage) : Prop :=
  ∀ m ∈ l, ∀ j, m.rx = (p j).pid → Origin p allowed m

/-- What comes in -/
lemma Calls.origin (h : s.Calls p allowed priority base t a op reply b) (hok : a.Ok base r) (hfree : a.FreeZero)
    (hdel : DelayedMail p allowed a) {e : Nat} (he : e ∈ a.comesIn op reply) (hrx : b.rx e = (p j).pid) :
    Origin p allowed (messageAt b.pool.memory e) := by
  obtain ⟨r', hn⟩ := h.next
  by_cases hop : ∃ c, op = .uart c
  · obtain ⟨c, rfl⟩ := hop
    obtain ⟨tx, hm⟩ := hn.effect.messageAt_uart hfree he
    exact .typed tx c hm
  · rw [Spec.Kernel.comesIn_of_ne fun c hc => hop ⟨c, hc⟩] at he
    rcases hn.effect.mem_arrivals hok he with ⟨pid, rfl, -⟩ | ⟨hmem, hpool⟩
    · have hsend : ∃ c, reply = .code c := Spec.Kernel.send_code hn.call
      obtain ⟨c, rfl⟩ := hsend
      obtain rfl : c = 0 := by
        by_contra hne
        simp [Op.arrivals, hne] at he
      have hm := hn.effect.messageAt_send
      by_cases hcur : ∃ i, a.sched.currentPid = (p i).pid
      · obtain ⟨i, hi⟩ := hcur
        rw [hi] at hm
        exact .own i _ hm ((h.sends i rfl hi).2 _ (List.mem_singleton_self _))
      · refine .later (.other fun i hi => hcur ⟨i, ?_⟩)
        rw [← hi, hm]
        rfl
    · refine .later ?_
      have hrx' : a.rx e = b.rx e := by
        rw [Spec.Kernel.rx, Spec.Kernel.rx, hpool]
      rw [hpool]
      exact hdel e hmem j (hrx'.trans hrx)

/-- What is put off -/
lemma Calls.delayedMail (h : s.Calls p allowed priority base t a op reply b) (hok : a.Ok base r)
    (hown : a.MailOwned) (hdel : DelayedMail p allowed a) : DelayedMail p allowed b := by
  obtain ⟨r', hn⟩ := h.next
  intro e he j hrx
  by_cases hmem : e ∈ a.delayed
  · have hmail : e ∈ a.mailbox ++ a.delayed := List.mem_append_right _ hmem
    have hrx' : a.rx e = (p j).pid := (hown.keep hok hn.permits hn.respects hn.effect hmail).1.symm.trans hrx
    rw [(h.kept j e hmail hrx').messageAt]
    exact hdel e hmem j hrx'
  · rcases hn.effect.mem_delayed hok he with hmem' | ⟨pid, delay, rfl, -⟩
    · exact absurd hmem' hmem
    · rcases hn.effect.messageAt_delayedSend with hsame | hm
      · exact absurd (hsame ▸ he) hmem
      · by_cases hcur : ∃ i, a.sched.currentPid = (p i).pid
        · obtain ⟨i, hi⟩ := hcur
          rw [hi] at hm
          exact .own i _ delay hm ((h.sends i rfl hi).2 _ (List.mem_singleton_self _))
        · refine .other fun i hi => hcur ⟨i, ?_⟩
          rw [← hi, hm]
          rfl

lemma Calls.allMail (h : s.Calls p allowed priority base t a op reply b) (hok : a.Ok base r) (hfree : a.FreeZero)
    (hdel : DelayedMail p allowed a) (hmail : AllMail p allowed s.mail) : AllMail p allowed t.mail := by
  intro m hm j hrx
  rw [h.mail] at hm
  rcases List.mem_append.mp hm with hm | hm
  · exact hmail m hm j hrx
  · obtain ⟨e, he, rfl⟩ := List.mem_map.mp hm
    exact h.origin hok hfree hdel he hrx

/-! ### What was typed -/

/-- The characters that were passed on have come in as messages, in their order. -/
def TypedMail (s : Scripted σ) : Prop :=
  ∃ l, l.Sublist (s.arrived kcdPid) ∧ List.Forall₂ (fun c m => ∃ tx, m = typedMessage tx c) s.typed l

lemma passedOn_cases (op : Op) (reply : Reply) :
    op.passedOn reply = [] ∨ ∃ c, op = .uart c ∧ reply = .sent (some 0) ∧ op.passedOn reply = [c] := by
  rw [Op.passedOn.eq_def]
  split
  · exact .inr ⟨_, rfl, rfl, rfl⟩
  · exact .inl rfl

lemma Calls.typedMail (h : s.Calls p allowed priority base t a op reply b) (hfree : a.FreeZero)
    (hty : s.TypedMail) : t.TypedMail := by
  obtain ⟨l, hl, hall⟩ := hty
  have harrived : t.arrived kcdPid = s.arrived kcdPid ++
      ((a.comesIn op reply).map (messageAt b.pool.memory)).filter fun m => m.rx = kcdPid := by
    rw [arrived, h.mail, List.filter_append]
    rfl
  rcases passedOn_cases op reply with hnone | ⟨c, rfl, rfl, hc⟩
  · refine ⟨l, hl.trans ?_, ?_⟩
    · rw [harrived]
      exact List.sublist_append_left _ _
    · rw [h.typed, hnone, List.append_nil]
      exact hall
  · obtain ⟨r', hn⟩ := h.next
    have hin : ∃ e, a.comesIn (.uart c) (.sent (some 0)) = [e] := by
      cases hn.effect with
      | quiet s hq => cases hq
      | typedLost hp =>
        obtain ⟨d, l', hav, -, -⟩ := Spec.Kernel.take_cases hp
        rw [Spec.Kernel.comesIn, hav]
        exact ⟨_, rfl⟩
      | typed s hp =>
        obtain ⟨d, l', hav, -, -⟩ := Spec.Kernel.take_cases hp
        rw [Spec.Kernel.comesIn, hav]
        exact ⟨_, rfl⟩
    obtain ⟨e, he⟩ := hin
    obtain ⟨tx, hm⟩ := hn.effect.messageAt_uart hfree (he ▸ List.mem_singleton_self e)
    refine ⟨l ++ [typedMessage tx c], ?_, ?_⟩
    · rw [harrived, he, List.map_singleton, hm]
      exact hl.append (List.Sublist.refl _)
    · rw [h.typed, hc]
      exact List.rel_append hall (.cons ⟨tx, rfl⟩ .nil)

/-! ### Channels -/

/-- The messages that were sent at once to the process `pid` -/
def sentTo (pid : UInt32) (l : List Deed) : List Send :=
  l.filterMap fun
    | .sent call => if call.processId = pid then some call else none
    | _ => none

lemma sentTo_sendings {pid : UInt32} {l : List Deed} : sentTo pid (sendings l) = sentTo pid l := by
  rw [sentTo, sendings, List.filterMap_filter]
  congr 1
  funext d
  cases d <;> rfl

lemma sentTo_append {pid : UInt32} {l l' : List Deed} : sentTo pid (l ++ l') = sentTo pid l ++ sentTo pid l' :=
  List.filterMap_append

lemma sentTo_prefix (pid : UInt32) {l l' : List Deed} (h : l <+: l') : sentTo pid l <+: sentTo pid l' :=
  h.filterMap _

/-- The messages from the process `i` that have come in for the process `j` are those that it has sent. -/
def Channel (p : ∀ i, Process (σ i)) (i j : ι) (s : Scripted σ) : Prop :=
  (s.arrived (p j).pid).filter (fun m => m.tx = (p i).pid) =
    (sentTo (p j).pid (s.deeds i)).map fun call => call.signed (p i).pid

lemma Channel.exists_sent {m : IoMessage} (h : s.Channel p i j) (hm : m ∈ s.arrived (p j).pid)
    (htx : m.tx = (p i).pid) :
    ∃ call, m = call.signed (p i).pid ∧ .sent call ∈ s.deeds i ∧ call.processId = (p j).pid := by
  have hfrom : m ∈ (s.arrived (p j).pid).filter fun m => m.tx = (p i).pid :=
    List.mem_filter.mpr ⟨hm, decide_eq_true htx⟩
  rw [h] at hfrom
  obtain ⟨call, hcall, rfl⟩ := List.mem_map.mp hfrom
  obtain ⟨d, hd, heq⟩ := List.mem_filterMap.mp hcall
  refine ⟨call, rfl, ?_⟩
  cases d with
  | sent c =>
    dsimp only at heq
    split_ifs at heq with hpid
    obtain rfl := Option.some.inj heq
    exact ⟨hd, hpid⟩
  | _ => cases heq

/-- The messages that come in for the process `j` from the process `i` -/
def incoming (p : ∀ i, Process (σ i)) (i j : ι) (a : Spec.Kernel) (op : Op) (reply : Reply) (b : Spec.Kernel) :
    List IoMessage :=
  (((a.comesIn op reply).map (messageAt b.pool.memory)).filter fun m => m.rx = (p j).pid).filter
    fun m => m.tx = (p i).pid

lemma incoming_eq_nil (h : ∀ e ∈ a.comesIn op reply, b.rx e = (p j).pid → b.tx e ≠ (p i).pid) :
    incoming p i j a op reply b = [] := by
  rw [incoming, List.filter_filter, List.filter_eq_nil_iff]
  intro m hm
  obtain ⟨e, he, rfl⟩ := List.mem_map.mp hm
  intro htrue
  rw [Bool.and_eq_true, decide_eq_true_iff, decide_eq_true_iff] at htrue
  exact h e he htrue.2 htrue.1

/-- A message to a live process is accepted. -/
lemma send_accepted {pid : UInt32} {e : Nat} {c : UInt32} (hok : a.Ok base r) (hbase : base ≠ 0)
    (hp : a.Permits (.send pid e)) (hlive : ∃ x ∈ a.sched.live, a.sched.pid x = pid)
    (hy : a.call (.send pid e) = some (.code c, b)) : c = 0 := by
  obtain ⟨y, hs, hx⟩ := Option.map_eq_some_iff.mp hy
  obtain ⟨hc, -⟩ := Prod.mk.inj hx
  obtain rfl := Reply.code.inj hc
  rcases Spec.Kernel.sendMessage_cases hs with ⟨hzero | hfind, -⟩ | ⟨-, b', s', -, rfl⟩
  · obtain ⟨-, ⟨d, hd, hstart⟩, -⟩ := hp
    have hbegin := hok.pool.start_eq d (hok.pool.lt_of_mem (q := .usedBlocks) hd)
    omega
  · exact absurd hfind (Spec.Kernel.find_of_live hok hlive)
  · rfl

/-- What comes in from the process `i` is what it sends. -/
lemma Calls.incoming_eq (h : s.Calls p allowed priority base t a op reply b) (hok : a.Ok base r) (hbase : base ≠ 0)
    (hdel : DelayedMail p allowed a) (hinj : Function.Injective fun i => (p i).pid)
    (hlive : ∃ x ∈ a.sched.live, a.sched.pid x = (p j).pid) (hfree : a.FreeZero) (hj : (p j).pid ≠ kcdPid)
    (hnd : ∀ call delay, allowed i (.delayed call delay) → call.processId ≠ (p j).pid) :
    incoming p i j a op reply b =
      if op.isInterrupt = false ∧ a.sched.currentPid = (p i).pid then
        (sentTo (p j).pid (a.tells op)).map fun call => call.signed (p i).pid
      else [] := by
  obtain ⟨r', hn⟩ := h.next
  have hnothing : a.comesIn op reply = [] → sentTo (p j).pid (a.tells op) = [] →
      incoming p i j a op reply b =
        if op.isInterrupt = false ∧ a.sched.currentPid = (p i).pid then
          (sentTo (p j).pid (a.tells op)).map fun call => call.signed (p i).pid
        else [] := by
    intro hin htells
    rw [htells, List.map_nil, ite_self, incoming, hin]
    rfl
  cases op with
  | uart c =>
    rw [if_neg (by simp [Op.isInterrupt])]
    apply incoming_eq_nil
    intro e he hrx
    obtain ⟨tx, hm⟩ := hn.effect.messageAt_uart hfree he
    have hkcd : (messageAt b.pool.memory e).rx = kcdPid := by
      rw [hm]
      rfl
    exact absurd (hrx.symm.trans hkcd) hj
  | timer =>
    rw [if_neg (by simp [Op.isInterrupt])]
    apply incoming_eq_nil
    intro e he hrx htx
    rw [Spec.Kernel.comesIn_of_ne (by simp)] at he
    rcases hn.effect.mem_arrivals hok he with ⟨pid, hop, -⟩ | ⟨hmem, hpool⟩
    · cases hop
    · have hrx' : a.rx e = (p j).pid := by
        rw [← hrx, Spec.Kernel.rx, Spec.Kernel.rx, hpool]
      have htx' : (messageAt a.pool.memory e).tx = (p i).pid := by
        rw [← htx, ← hpool]
        rfl
      cases hdel e hmem j hrx' with
      | other hne => exact hne i htx'
      | own i' call delay hm hallowed =>
        have hi : i' = i := by
          apply hinj
          dsimp only
          rw [← htx', hm]
          rfl
        subst hi
        have hpid : (messageAt a.pool.memory e).rx = call.processId := congrArg IoMessage.rx hm
        exact hnd call delay hallowed (hpid.symm.trans hrx')
  | send pid e =>
    obtain ⟨c, rfl⟩ := Spec.Kernel.send_code hn.call
    by_cases hc : c = 0
    · subst hc
      have hm := hn.effect.messageAt_send
      have hin : a.comesIn (.send pid e) (.code 0) = [e] := rfl
      rw [incoming, hin, List.map_singleton, hm]
      by_cases hcur : a.sched.currentPid = (p i).pid
      · rw [if_pos ⟨rfl, hcur⟩, hcur, Spec.Kernel.tells]
        by_cases hpid : pid = (p j).pid
        · simp [sentTo, Send.signed, hpid]
        · simp [sentTo, Send.signed, hpid]
      · rw [if_neg fun hand => hcur hand.2, List.filter_filter]
        simp [Send.signed, hcur]
    · have hin : a.comesIn (.send pid e) (.code c) = [] := by
        rw [Spec.Kernel.comesIn_of_ne (by simp), Op.arrivals, if_neg hc]
      apply hnothing hin
      have hpid : pid ≠ (p j).pid := by
        rintro rfl
        exact hc (send_accepted hok hbase hn.permits hlive hn.call)
      simp [Spec.Kernel.tells, sentTo, hpid]
  | _ => exact hnothing rfl rfl

lemma Calls.channel (h : s.Calls p allowed priority base t a op reply b) (hok : a.Ok base r) (hbase : base ≠ 0)
    (hdel : DelayedMail p allowed a) (hinj : Function.Injective fun i => (p i).pid)
    (hlive : ∃ x ∈ a.sched.live, a.sched.pid x = (p j).pid) (hfree : a.FreeZero) (hj : (p j).pid ≠ kcdPid)
    (hnd : ∀ call delay, allowed i (.delayed call delay) → call.processId ≠ (p j).pid) (hch : s.Channel p i j) :
    t.Channel p i j := by
  have hsplit : (t.arrived (p j).pid).filter (fun m => m.tx = (p i).pid) =
      (s.arrived (p j).pid).filter (fun m => m.tx = (p i).pid) ++ incoming p i j a op reply b := by
    rw [arrived, h.mail, List.filter_append, List.filter_append]
    rfl
  rw [Channel, hsplit, hch, h.incoming_eq hok hbase hdel hinj hlive hfree hj hnd, ← sentTo_sendings (l := t.deeds i),
    ← sentTo_sendings (l := s.deeds i)]
  by_cases hown : op.isInterrupt = false ∧ a.sched.currentPid = (p i).pid
  · rw [if_pos hown, (h.sends i hown.1 hown.2).1, sentTo_append, List.map_append]
  · rw [if_neg hown, List.append_nil, h.silent i]
    rcases Bool.eq_false_or_eq_true op.isInterrupt with hint | hint
    · exact .inl hint
    · exact .inr fun hcur => hown ⟨hint, hcur⟩

/-! ### Runs -/

/-- What is known of the mail -/
structure Delivers (p : ∀ i, Process (σ i)) (allowed : ι → Deed → Prop) (s : Scripted σ) (a : Spec.Kernel) : Prop where
  delayed : DelayedMail p allowed a
  mail : AllMail p allowed s.mail
  typed : s.TypedMail
  channel : ∀ i j, (p j).pid ≠ kcdPid →
    (∀ call delay, allowed i (.delayed call delay) → call.processId ≠ (p j).pid) → s.Channel p i j

lemma Delivers.quiet (h : s.Delivers p allowed a) (hq : s.Quiet t) : t.Delivers p allowed a where
  delayed := h.delayed
  mail := hq.mail ▸ h.mail
  typed := by
    obtain ⟨l, hl, hall⟩ := h.typed
    refine ⟨l, ?_, hq.typed ▸ hall⟩
    rw [arrived, hq.mail]
    exact hl
  channel := by
    intro i j hj hnd
    have hch := h.channel i j hj hnd
    rw [Channel, arrived, ← sentTo_sendings] at hch ⊢
    rw [hq.mail, hq.sends]
    exact hch

lemma Delivers.step (h : s.Delivers p allowed a) (hgood : s.Good p allowed J priority base a) (hbase : base ≠ 0)
    (hinj : Function.Injective fun i => (p i).pid) (hc : s.Calls p allowed priority base t a op reply b) :
    t.Delivers p allowed b := by
  obtain ⟨r, ho, hfree, hgoes⟩ := hgood
  refine ⟨hc.delayedMail ho.ok ho.mailOwned h.delayed, hc.allMail ho.ok hfree h.delayed h.mail,
    hc.typedMail hfree h.typed, ?_⟩
  intro i j hj hnd
  obtain ⟨v, hv⟩ := hgoes j
  exact hc.channel ho.ok hbase h.delayed hinj hv.live hfree hj hnd (h.channel i j hj hnd)

lemma Delivers.start {a : Spec.Kernel} (hdel : a.delayed = []) : (start p k₀).Delivers p allowed a where
  delayed := by
    intro x hx
    rw [hdel] at hx
    cases hx
  mail := by
    intro m hm
    cases hm
  typed := ⟨[], List.Sublist.refl _, .nil⟩
  channel := fun _ _ _ _ => rfl

lemma mail_of_perform (h : s.perform op = some (reply, t)) : s.mail <+: t.mail := by
  obtain ⟨k, -, rfl⟩ := of_perform h
  exact List.prefix_append _ _

variable [DecidableEq ι] [Fintype ι]

/-- What has come in is not forgotten. -/
lemma Step.mail (h : Step p s x t) : s.mail <+: t.mail := by
  cases x with
  | call op =>
    rw [Step, Scripted.step] at h
    split_ifs at h with hop
    obtain ⟨y, hy, rfl⟩ := Option.map_eq_some_iff.mp h
    exact mail_of_perform hy
  | own i =>
    rw [Step, Scripted.step] at h
    split_ifs at h with hcur
    cases hcode : s.code i with
    | done q =>
      rw [hcode] at h
      obtain ⟨⟨reply, u⟩, hu, rfl⟩ := Option.map_eq_some_iff.mp h
      have hpre := mail_of_perform hu
      cases reply with
      | envelope e =>
        cases e with
        | none => exact hpre
        | some e => exact hpre
      | _ => exact hpre
    | step c next =>
      rw [hcode] at h
      dsimp only [Scripted.proceed] at h
      cases hop : c.op with
      | none =>
        rw [hop] at h
        obtain ⟨y, -, rfl⟩ := Option.map_eq_some_iff.mp h
        exact List.prefix_refl _
      | some op =>
        rw [hop] at h
        obtain ⟨⟨reply, u⟩, hu, rfl⟩ := Option.map_eq_some_iff.mp h
        have hpre := mail_of_perform hu
        dsimp only
        split
        · exact hpre
        · exact hpre

/-- A process that runs can go on. -/
lemma Good.exists_step (hpid : (p i).pid ≠ 0) (h : s.Good p allowed J priority base a)
    (hcur : s.kernel.currentPid = (p i).pid) : ∃ t, Step p s (.own i) t := by
  obtain ⟨r, ho, -, hgoes⟩ := h
  obtain ⟨v, hgoes⟩ := hgoes i
  have hcur' : a.sched.currentPid = (p i).pid := ho.rep.currentPid ▸ hcur
  have hcall : ∀ op, a.Permits op → ∃ y, s.perform op = some y := by
    intro op hop
    have hz : s.kernel.Calls op := fun _ => hcur ▸ hpid
    obtain ⟨x, hx⟩ := (ho.toSound.call_isSome_iff hz).mpr (ho.posted.call_isSome ho.ok hop)
    exact ⟨_, Option.map_eq_some_iff.mpr ⟨x, hx, rfl⟩⟩
  simp only [Step, Scripted.step, if_pos hcur]
  cases hcode : s.code i with
  | done q =>
    obtain ⟨y, hy⟩ := hcall .receive (show a.sched.currentPid ≠ 0 from hcur' ▸ hpid)
    exact ⟨_, Option.map_eq_some_iff.mpr ⟨y, hy, rfl⟩⟩
  | step c next =>
    have hwp := hgoes.code
    rw [hcode] at hwp
    dsimp only [Scripted.proceed]
    cases hop : c.op with
    | none =>
      cases c with
      | load x => exact ⟨_, rfl⟩
      | getTime => exact ⟨_, rfl⟩
      | write x => exact ⟨_, rfl⟩
      | fail => exact hwp.1.elim
      | _ => cases hop
    | some op =>
      obtain ⟨hp, -, -⟩ := hgoes.shows.proper ho.ok ho.mailOwned hcur' hpid hwp.1 hop
      obtain ⟨y, hy⟩ := hcall op hp
      exact ⟨_, Option.map_eq_some_iff.mpr ⟨y, hy, rfl⟩⟩

/-- The process `i` has received its messages in their order and with their contents. At a `receive_message` it has
done what its code does with them, in between a part of it, and it is never stuck. -/
structure AsCode (p : ∀ i, Process (σ i)) (J : ∀ i, List IoMessage → σ i → List Deed → Prop) (s : Scripted σ)
    (i : ι) : Prop where
  received : s.received i <+: s.arrived (p i).pid
  waiting : ∀ q, s.code i = .done q → J i (s.received i) q (s.deeds i)
  within : ∃ q l, J i (s.received i) q l ∧ s.deeds i <+: l
  goesOn : s.kernel.currentPid = (p i).pid → ∃ t, Step p s (.own i) t

lemma Good.asCode (h : s.Good p allowed J priority base a) (hpid : (p i).pid ≠ 0) : s.AsCode p J i := by
  refine ⟨?_, ?_, ?_, h.exists_step hpid⟩
  · obtain ⟨r, -, -, hgoes⟩ := h
    obtain ⟨v, hv⟩ := hgoes i
    exact ⟨_, hv.arrived.symm⟩
  · intro q hq
    obtain ⟨r, -, -, hgoes⟩ := h
    obtain ⟨v, hv⟩ := hgoes i
    have hwp := hv.code
    rw [hq] at hwp
    exact hv.deeds ▸ hwp
  · obtain ⟨r, -, -, hgoes⟩ := h
    obtain ⟨v, hv⟩ := hgoes i
    obtain ⟨q, w, hJ, hpre⟩ := exists_of_wp hv.code
    exact ⟨q, w.deeds, hJ, hv.deeds ▸ hpre⟩

/-- Processes that are correct as sequential programs run as their code says, and their mail is delivered, if the
messages that come in fit; for this it may be used where they come from. -/
theorem runs_as_code (hc : ∀ i, (p i).Correct (allowed i) (Fits i) (J i)) (hprio : ∀ i, priority i ≤ 4)
    (hbase : base ≠ 0) (hboot : boot priority base = some k₀)
    (hp : ∀ i, (p i).pid ∈ (initBlocks priority).map Prod.fst) (hpid : ∀ i, (p i).pid ≠ 0)
    (hinj : Function.Injective fun i => (p i).pid) (hrun : Run (Step p) (start p k₀) xs s)
    (hfits : ∀ l, l <+: s.mail → AllMail p allowed l → ∀ i, AllFit (Fits i) (l.filter fun m => m.rx = (p i).pid)) :
    (∀ i, s.AsCode p J i) ∧ ∃ a, s.Delivers p allowed a := by
  have hI := hrun.invariant
    (I := fun u => u.mail <+: s.mail → ∃ a, u.Good p allowed J priority base a ∧ u.Delivers p allowed a) ?_ ?_
  · obtain ⟨a, hgood, hdel⟩ := hI (List.prefix_refl _)
    exact ⟨fun i => hgood.asCode (hpid i), a, hdel⟩
  · intro _
    obtain ⟨a, hgood, hdel⟩ := Good.start hc hprio hboot hp
    exact ⟨a, hgood, .start hdel⟩
  · intro u x u' hu hx hpre
    obtain ⟨a, hgood, hdel⟩ := hu (hx.mail.trans hpre)
    rcases hgood.step hc hbase hpid hinj hx with ⟨hquiet, hgood'⟩ | ⟨op, reply, b, hcalls, hgood'⟩
    · exact ⟨a, hgood', hdel.quiet hquiet⟩
    · have hdel' := hdel.step hgood hbase hinj hcalls
      exact ⟨b, hgood' (hfits _ hpre hdel'.mail), hdel'⟩

/-- A run from start-up is obtained by evaluating its actions. What there is `seen` of its last state can be decided. -/
lemma exists_run_of_seen {α : Type} {seen : Scripted σ → α} {y : α}
    (h : ((boot priority base).bind fun k => xs.foldlM (step p) (start p k)).map seen = some y) :
    ∃ k₀ s, boot priority base = some k₀ ∧ Run (Step p) (start p k₀) xs s ∧ seen s = y := by
  obtain ⟨s, hs, hseen⟩ := Option.map_eq_some_iff.mp h
  obtain ⟨k₀, hboot, hs⟩ := Option.bind_eq_some_iff.mp hs
  exact ⟨k₀, s, hboot, Run.of_foldlM (fun _ _ _ hstep => hstep) hs, hseen⟩

end Scripted

end RtxKernel
