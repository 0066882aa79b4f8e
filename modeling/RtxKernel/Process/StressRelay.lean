import RtxKernel.Process.Stress

/-!
# The reports on their way

What every step of the stress processes preserves (`Relay`), as long as `stress_c` does not free a block of
its own with the pointer of an earlier turn: the reports that were sent are those that were taken up and those that
are on their way, in order.
-/

namespace RtxKernel

/-! ### Reports -/

section Reports

variable {m m' : Memory} {l l' : List Nat} {e : Nat}

lemma reports_nil : reports m [] = [] := rfl

lemma reports_append : reports m (l ++ l') = reports m l ++ reports m l' := by
  rw [reports, List.filter_append, List.map_append, reports, reports]

lemma reports_congr (h : ∀ e ∈ l, typeOf m' e = typeOf m e ∧ number m' e = number m e) :
    reports m' l = reports m l := by
  have hfilter : (l.filter fun e => typeOf m' e = typeCountReport) =
      l.filter fun e => typeOf m e = typeCountReport := by
    apply List.filter_congr
    intro e he
    rw [(h e he).1]
  rw [reports, reports, hfilter]
  apply List.map_congr_left
  intro e he
  exact (h e (List.mem_of_mem_filter he)).2

lemma reports_of_not (h : ∀ e ∈ l, typeOf m e ≠ typeCountReport) : reports m l = [] := by
  rw [reports, List.filter_eq_nil_iff.mpr, List.map_nil]
  intro e he
  simpa using h e he

lemma reports_singleton (h : typeOf m e = typeCountReport) : reports m [e] = [number m e] := by
  rw [reports, List.filter_cons_of_pos (by simp [h]), List.filter_nil, List.map_singleton]

lemma reports_cons (h : typeOf m e = typeCountReport) : reports m (e :: l) = number m e :: reports m l := by
  rw [← List.singleton_append, reports_append, reports_singleton h, List.singleton_append]

end Reports

/-! ### The blocks that the processes hold -/

def StressA.blocks : StressA → List Nat
  | registering regCmd _ => [regCmd]
  | received e => [e]
  | filling _ numMsg _ => [numMsg]
  | _ => []

/-- The number of the next report, when `n` were sent -/
def StressA.Counts (n : Nat) : StressA → Prop
  | counting num | filling num _ _ | yielding num => num = UInt32.ofNat n
  | _ => n = 0

/-- The block at which the process works -/
def StressC.work (s : StressC) : List Nat :=
  match s.point with
  | .took e => [e]
  | .printing procC _ => [procC]
  | .filling _ => [s.hibernate]
  | .ending true => [s.hibernate]
  | _ => []

/-- The message that is to wake the process -/
def StressC.wake (s : StressC) : Option Nat :=
  match s.point with
  | .asleep => some s.hibernate
  | _ => none

namespace Spec.Kernel

variable {a b : Kernel} {base : Nat} {r : PcbPtr} {op : Op} {reply : Reply} {e : Nat} {p : UInt32}
  {S : Nat → UInt32 → Prop} {sa sa' : StressA} {sb sb' : StressB} {sc sc' : StressC}
  {sent taken taken' : List UInt32} {w : Option Nat}

/-- `stress_b` or `stress_c` -/
def IsRelay (p : UInt32) : Prop := p = stressBPid ∨ p = stressCPid

lemma IsRelay.mem (h : IsRelay p) : p ∈ stressPids := by
  rcases h with rfl | rfl
  · exact List.mem_cons_of_mem _ List.mem_cons_self
  · exact List.mem_cons_of_mem _ (List.mem_cons_of_mem _ List.mem_cons_self)

lemma IsRelay.ne_kcd (h : IsRelay p) : p ≠ kcdPid := by
  rcases h with rfl | rfl
  · decide
  · decide

structure AHolds (a : Kernel) (s : StressA) : Prop where
  held : ∀ e ∈ s.blocks, a.Held e stressAPid
  written : ∀ num x j, s = .filling num x j → Written a.pool.memory (StressA.numStores num x) j

def BHolds (a : Kernel) : StressB → Prop
  | .received e => a.Held e stressBPid ∧ typeOf a.pool.memory e = typeCountReport
  | .waiting => True

structure CHolds (a : Kernel) (s : StressC) : Prop where
  held : ∀ e ∈ s.work ++ s.queue, a.Held e stressCPid
  nodup : (s.work ++ s.queue).Nodup
  empty : s.point = .receiving → s.queue = []
  report : ∀ e ∈ s.messages, typeOf a.pool.memory e = typeCountReport
  written : ∀ j, s.point = .filling j → Written a.pool.memory (StressC.hibStores s.hibernate) j

/-- What is in the mailboxes for `stress_b` and `stress_c`: reports, and the message `w` that is to wake the
latter, which may be delayed -/
structure MailFits (a : Kernel) (w : Option Nat) : Prop where
  mail : ∀ e ∈ a.mailbox ++ a.delayed, IsRelay (a.rx e) →
    typeOf a.pool.memory e = typeCountReport ∨ w = some e
  delayed : ∀ e ∈ a.delayed, IsRelay (a.rx e) → w = some e
  wake : ∀ e, w = some e → e ∈ a.mailbox ++ a.delayed ∧ a.rx e = stressCPid ∧
    typeOf a.pool.memory e = typeWakeup10

/-- The relation between the state of the system and the reports that were sent and taken up -/
structure Relay (a : Kernel) (sa : StressA) (sb : StressB) (sc : StressC) (sent taken : List UInt32) :
    Prop where
  liveB : ∃ p ∈ a.sched.live, a.sched.pid p = stressBPid
  liveC : ∃ p ∈ a.sched.live, a.sched.pid p = stressCPid
  holdsA : a.AHolds sa
  holdsB : a.BHolds sb
  holdsC : a.CHolds sc
  mail : a.MailFits sc.wake
  counts : sa.Counts sent.length
  numbered : sent = (List.range sent.length).map UInt32.ofNat
  flow : sent = taken ++ reports a.pool.memory
    (sc.messages ++ (a.mailTo stressCPid ++ (sb.messages ++ a.mailTo stressBPid)))

/-! ### What is kept -/

lemma Kept.typeOf (h : a.Kept b e) : typeOf b.pool.memory e = typeOf a.pool.memory e := by
  apply read32_congr
  intro x hx hx'
  simp only [typeField] at hx hx'
  exact h x (by omega) (by simp only [memBlockSize]; omega)

lemma Kept.number (h : a.Kept b e) : number b.pool.memory e = number a.pool.memory e := by
  apply read32_congr
  intro x hx hx'
  simp only [msgField] at hx hx'
  exact h x (by omega) (by simp only [memBlockSize]; omega)

lemma reports_kept {l : List Nat} (h : ∀ e ∈ l, a.Kept b e) :
    reports b.pool.memory l = reports a.pool.memory l :=
  reports_congr fun e he => ⟨(h e he).typeOf, (h e he).number⟩

/-- Bytes that are stored in a block -/
lemma Kept.written (h : a.Kept b e) {l : List (Nat × UInt8)} {j : Nat}
    (hl : ∀ z ∈ l, e ≤ z.1 ∧ z.1 < e + memBlockSize) (hw : Written a.pool.memory l j) :
    Written b.pool.memory l j :=
  hw.congr fun z hz => h z.1 (hl z hz).1 (hl z hz).2

lemma numStores_mem {num : UInt32} {x : Nat} :
    ∀ z ∈ StressA.numStores num x, x ≤ z.1 ∧ z.1 < x + memBlockSize := by
  simp only [StressA.numStores, wordBytes, typeField, msgField, memBlockSize, List.cons_append,
    List.nil_append, List.forall_mem_cons, List.not_mem_nil, IsEmpty.forall_iff, implies_true, and_true]
  omega

lemma typeBytes_mem {x : Nat} {t : UInt32} :
    ∀ z ∈ wordBytes (typeField x) t, x ≤ z.1 ∧ z.1 < x + memBlockSize := by
  simp only [wordBytes, typeField, memBlockSize, List.forall_mem_cons, List.not_mem_nil,
    IsEmpty.forall_iff, implies_true, and_true]
  omega

lemma AHolds.kept (h : a.AHolds sa) (hk : ∀ x, a.Held x stressAPid → b.Held x stressAPid ∧ a.Kept b x) :
    b.AHolds sa where
  held := fun e he => (hk e (h.held e he)).1
  written := by
    rintro num x j rfl
    have hx := h.held x (by simp [StressA.blocks])
    exact (hk x hx).2.written numStores_mem (h.written num x j rfl)

lemma BHolds.kept (h : a.BHolds sb) (hk : ∀ x, a.Held x stressBPid → b.Held x stressBPid ∧ a.Kept b x) :
    b.BHolds sb ∧ reports b.pool.memory sb.messages = reports a.pool.memory sb.messages := by
  cases sb with
  | waiting => exact ⟨trivial, reports_nil.trans reports_nil.symm⟩
  | received e =>
    obtain ⟨hheld, htype⟩ := h
    obtain ⟨hheld', hkept⟩ := hk e hheld
    have hmsg : ∀ x ∈ StressB.messages (.received e), a.Kept b x := by
      intro x hx
      rw [StressB.messages, List.mem_singleton] at hx
      rw [hx]
      exact hkept
    refine ⟨⟨hheld', ?_⟩, reports_kept hmsg⟩
    rw [hkept.typeOf]
    exact htype

lemma messages_sub : ∀ e ∈ sc.messages, e ∈ sc.work ++ sc.queue := by
  intro e he
  rw [StressC.messages] at he
  rw [StressC.work]
  cases hp : sc.point with
  | took x =>
    rw [hp] at he
    exact he
  | _ =>
    rw [hp] at he
    exact List.mem_append_right _ he

lemma CHolds.kept (h : a.CHolds sc) (hk : ∀ x, a.Held x stressCPid → b.Held x stressCPid ∧ a.Kept b x) :
    b.CHolds sc ∧ reports b.pool.memory sc.messages = reports a.pool.memory sc.messages := by
  have hkept : ∀ e ∈ sc.work ++ sc.queue, b.Held e stressCPid ∧ a.Kept b e :=
    fun e he => hk e (h.held e he)
  refine ⟨⟨fun e he => (hkept e he).1, h.nodup, h.empty, ?_, ?_⟩, ?_⟩
  · intro e he
    rw [(hkept e (messages_sub e he)).2.typeOf]
    exact h.report e he
  · intro j hj
    have hmem : sc.hibernate ∈ sc.work ++ sc.queue := by simp [StressC.work, hj]
    exact (hkept _ hmem).2.written typeBytes_mem (h.written j hj)
  · exact reports_kept fun e he => (hkept e (messages_sub e he)).2

/-! ### The mailboxes -/

/-- An operation that neither sends to the two processes nor takes out a message of theirs -/
lemma MailFits.step (h : a.MailFits w) (hok : a.Ok base r) (hpost : a.Posted base) (hp : a.Permits op)
    (he : a.Effect op reply b) (hk : a.Preserves b S)
    (hS : ∀ x ∈ a.mailbox ++ a.delayed, IsRelay (a.rx x) → S x (a.rx x))
    (hrec : op = .receive → op.isQuiet reply = false → ¬ IsRelay a.sched.currentPid)
    (hsend : ∀ pid x, (op = .send pid x ∨ ∃ delay, op = .delayedSend pid x delay) → ¬ IsRelay pid) :
    b.MailFits w ∧ ∀ p, IsRelay p →
      reports b.pool.memory (b.mailTo p) = reports a.pool.memory (a.mailTo p) := by
  have hmail : ∀ p, IsRelay p →
      b.mailTo p = a.mailTo p ++ (op.arrivals reply).filter fun e => b.rx e = p := by
    intro p hrel
    refine he.mailTo hok hpost hp hk.rx hrel.ne_kcd ?_
    rintro rfl hq hcur
    exact hrec rfl hq (hcur ▸ hrel)
  have hkept : ∀ x ∈ a.mailbox ++ a.delayed, IsRelay (a.rx x) → a.Kept b x :=
    fun x hx hrel => hk.kept x hx (hS x hx hrel)
  have hold : ∀ x ∈ a.mailbox ++ a.delayed, IsRelay (b.rx x) →
      typeOf b.pool.memory x = typeCountReport ∨ w = some x := by
    intro x hx hrel
    rw [hk.rx x hx] at hrel
    rw [(hkept x hx hrel).typeOf]
    exact h.mail x hx hrel
  have harr : ∀ x ∈ op.arrivals reply, IsRelay (b.rx x) → w = some x := by
    intro x hx hrel
    rcases he.mem_arrivals hok hx with ⟨pid, hop, hpid⟩ | ⟨hd, -⟩
    · exact absurd (hpid ▸ hrel) (hsend pid x (.inl hop))
    · rw [hk.rx x (List.mem_append_right _ hd)] at hrel
      exact h.delayed x hd hrel
  have hwake : ∀ e, w = some e → b.rx e = stressCPid ∧ typeOf b.pool.memory e = typeWakeup10 := by
    intro e hw
    obtain ⟨hmem, hrx, htype⟩ := h.wake e hw
    have hrel : IsRelay (a.rx e) := .inr hrx
    exact ⟨(hk.rx e hmem).trans hrx, (hkept e hmem hrel).typeOf.trans htype⟩
  refine ⟨⟨?_, ?_, ?_⟩, ?_⟩
  · intro x hx hrel
    rcases he.mem_mail hok hx with hx | ⟨pid, hop, hpid⟩ | ⟨pid, delay, hop, hpid⟩ | ⟨d, -, -, hkcd⟩
    · exact hold x hx hrel
    · exact absurd (hpid ▸ hrel) (hsend pid x (.inl hop))
    · exact absurd (hpid ▸ hrel) (hsend pid x (.inr ⟨delay, hop⟩))
    · exact absurd hkcd hrel.ne_kcd
  · intro x hx hrel
    rcases he.mem_delayed hok hx with hd | ⟨pid, delay, hop, hpid⟩
    · rw [hk.rx x (List.mem_append_right _ hd)] at hrel
      exact h.delayed x hd hrel
    · exact absurd (hpid ▸ hrel) (hsend pid x (.inr ⟨delay, hop⟩))
  · intro e hw
    refine ⟨?_, hwake e hw⟩
    obtain ⟨hmem, hrx, -⟩ := h.wake e hw
    have hbox : e ∈ b.mailTo stressCPid → e ∈ b.mailbox ++ b.delayed :=
      fun hm => List.mem_append_left _ (mem_mailTo.mp hm).1
    rw [hmail stressCPid (.inr rfl)] at hbox
    rcases List.mem_append.mp hmem with hm | hd
    · exact hbox (List.mem_append_left _ (mem_mailTo.mpr ⟨hm, hrx⟩))
    · rcases he.delayed_stays hok hd with hd | harrive
      · exact List.mem_append_right _ hd
      · apply hbox
        apply List.mem_append_right
        rw [List.mem_filter, decide_eq_true_iff]
        exact ⟨harrive, (hwake e hw).1⟩
  · intro p hrel
    have hnone : reports b.pool.memory ((op.arrivals reply).filter fun e => b.rx e = p) = [] := by
      apply reports_of_not
      intro x hx
      rw [List.mem_filter, decide_eq_true_iff] at hx
      obtain ⟨harrive, rfl⟩ := hx
      rw [(hwake x (harr x harrive hrel)).2]
      decide
    rw [hmail p hrel, reports_append, hnone, List.append_nil]
    apply reports_kept
    intro x hx
    obtain ⟨hm, rfl⟩ := mem_mailTo.mp hx
    exact hkept x (List.mem_append_left _ hm) hrel

/-! ### What happens around a process -/

/-- What a step leaves as it is that works at the block at `x`, or at none -/
structure Around (a b : Kernel) (x : Option Nat) (w : Option Nat) : Prop where
  live : ∀ q, IsRelay q → (∃ y ∈ a.sched.live, a.sched.pid y = q) → ∃ y ∈ b.sched.live, b.sched.pid y = q
  held : ∀ q ∈ stressPids, ∀ y, x ≠ some y → a.Held y q → b.Held y q ∧ a.Kept b y
  mail : b.MailFits w
  reports : ∀ q, IsRelay q → reports b.pool.memory (b.mailTo q) = reports a.pool.memory (a.mailTo q)

lemma not_isRelay {pid : UInt32} {x : Nat} (h : op.SparesStress)
    (hop : op = .send pid x ∨ ∃ delay, op = .delayedSend pid x delay) : ¬ IsRelay pid := by
  rcases hop with rfl | ⟨delay, rfl⟩
  · exact not_or.mpr h
  · exact not_or.mpr h

/-- An interrupt or another process -/
lemma MailFits.around_free (h : a.MailFits w) (hok : a.Ok base r) (hpost : a.Posted base)
    (hown : a.MailOwned) (hp : a.Permits op) (hr : a.Respects op) (hf : a.Outside stressPids op)
    (hs : op.SparesStress) (hy : a.call op = some (reply, b)) (he : a.Effect op reply b) :
    a.Around b none w := by
  have hk := hf.preserves hok hown hp hr he
  obtain ⟨hmail, hreports⟩ := h.step hok hpost hp he hk (fun _ _ hrel => hrel.mem)
    (fun hop _ hrel => by
      subst hop
      exact hf.caller.elim (by decide) fun hnot => hnot hrel.mem)
    fun pid x hop => not_isRelay hs hop
  exact ⟨fun q hrel => hf.live hok hy hrel.mem, fun q hq y _ hy => hk.held y q hy hq, hmail, hreports⟩

/-- A process that works at its block `x` -/
lemma MailFits.around_work {x : Option Nat} (h : a.MailFits w) (hok : a.Ok base r) (hpost : a.Posted base)
    (hown : a.MailOwned) (hp : a.Permits op) (hw : op.WorksAt x) (hx : ∀ e, x = some e → a.Held e p)
    (hs : op.SparesStress)
    (hrec : op = .receive → op.isQuiet reply = false → ¬ IsRelay a.sched.currentPid)
    (hy : a.call op = some (reply, b)) (he : a.Effect op reply b) : a.Around b x w := by
  have hk := hw.preserves hok hown hp (fun e hxe => ⟨p, hx e hxe⟩) he
  obtain ⟨hmail, hreports⟩ := h.step hok hpost hp he hk
    (fun y hy _ hxy => (hx y hxy).notMem hy) hrec fun pid y hop => not_isRelay hs hop
  refine ⟨?_, fun q _ y hxy hheld => hk.held y q hheld hxy, hmail, hreports⟩
  rintro q - ⟨y, hlive, rfl⟩
  have hterm : op ≠ .terminate := by
    rintro rfl
    exact hw
  obtain ⟨hlive', hpid⟩ := hok.live_step hy hlive fun hop => absurd hop hterm
  exact ⟨y, hlive', hpid⟩

/-- The other processes hold what they held. -/
lemma Around.others {x : Option Nat} (h : a.Around b x w) (hok : a.Ok base r)
    (hx : ∀ e, x = some e → a.Held e p) {q : UInt32} (hq : q ∈ stressPids) (hqp : q ≠ p) :
    ∀ y, a.Held y q → b.Held y q ∧ a.Kept b y := by
  intro y hy
  refine h.held q hq y ?_ hy
  intro hxy
  exact hqp (hy.unique hok (hx y hxy))

lemma a_mem : stressAPid ∈ stressPids := List.mem_cons_self

lemma b_mem : stressBPid ∈ stressPids := IsRelay.mem (.inl rfl)

lemma c_mem : stressCPid ∈ stressPids := IsRelay.mem (.inr rfl)

/-- The reports on their way when nothing comes in or goes out -/
lemma reports_flow {l l' ms ms' : List Nat} (hl : reports b.pool.memory l = reports a.pool.memory l')
    (hms : reports b.pool.memory ms = reports a.pool.memory ms')
    (hreports : ∀ q, IsRelay q → reports b.pool.memory (b.mailTo q) = reports a.pool.memory (a.mailTo q)) :
    reports b.pool.memory (l ++ (b.mailTo stressCPid ++ (ms ++ b.mailTo stressBPid))) =
      reports a.pool.memory (l' ++ (a.mailTo stressCPid ++ (ms' ++ a.mailTo stressBPid))) := by
  simp only [reports_append, hl, hms, hreports stressCPid (.inr rfl), hreports stressBPid (.inl rfl)]

/-- What an interrupt or another process does -/
theorem Relay.free (h : a.Relay sa sb sc sent taken) (ha : a.Around b none sc.wake) :
    b.Relay sa sb sc sent taken := by
  have hheld : ∀ q ∈ stressPids, ∀ y, a.Held y q → b.Held y q ∧ a.Kept b y :=
    fun q hq y => ha.held q hq y (by simp)
  obtain ⟨hB, hmsgB⟩ := h.holdsB.kept (hheld _ b_mem)
  obtain ⟨hC, hmsgC⟩ := h.holdsC.kept (hheld _ c_mem)
  refine ⟨ha.live _ (.inl rfl) h.liveB, ha.live _ (.inr rfl) h.liveC, h.holdsA.kept (hheld _ a_mem),
    hB, hC, ha.mail, h.counts, h.numbered, ?_⟩
  rw [reports_flow hmsgC hmsgB ha.reports]
  exact h.flow

/-- What `stress_a` does without the others -/
theorem Relay.a_local {x : Option Nat} (h : a.Relay sa sb sc sent taken) (hok : a.Ok base r)
    (ha : a.Around b x sc.wake) (hx : ∀ e, x = some e → a.Held e stressAPid)
    (hA : b.AHolds sa') (hcounts : sa'.Counts sent.length) : b.Relay sa' sb sc sent taken := by
  obtain ⟨hB, hmsgB⟩ := h.holdsB.kept (ha.others hok hx b_mem (by decide))
  obtain ⟨hC, hmsgC⟩ := h.holdsC.kept (ha.others hok hx c_mem (by decide))
  refine ⟨ha.live _ (.inl rfl) h.liveB, ha.live _ (.inr rfl) h.liveC, hA, hB, hC, ha.mail, hcounts,
    h.numbered, ?_⟩
  rw [reports_flow hmsgC hmsgB ha.reports]
  exact h.flow

/-- What `stress_c` does without the others -/
theorem Relay.c_local {x : Option Nat} (h : a.Relay sa sb sc sent taken) (hok : a.Ok base r)
    (ha : a.Around b x sc.wake) (hx : ∀ e, x = some e → a.Held e stressCPid)
    (hwake : sc'.wake = sc.wake) (hC : b.CHolds sc')
    (hmsgC : taken' ++ reports b.pool.memory sc'.messages = taken ++ reports a.pool.memory sc.messages) :
    b.Relay sa sb sc' sent taken' := by
  obtain ⟨hB, hmsgB⟩ := h.holdsB.kept (ha.others hok hx b_mem (by decide))
  refine ⟨ha.live _ (.inl rfl) h.liveB, ha.live _ (.inr rfl) h.liveC,
    h.holdsA.kept (ha.others hok hx a_mem (by decide)), hB, hC, hwake ▸ ha.mail, h.counts, h.numbered, ?_⟩
  have hrest := reports_flow (reports_nil.trans reports_nil.symm) hmsgB ha.reports
  rw [List.nil_append, List.nil_append] at hrest
  rw [reports_append, hrest, ← List.append_assoc, hmsgC, List.append_assoc, ← reports_append]
  exact h.flow

end Spec.Kernel

end RtxKernel
