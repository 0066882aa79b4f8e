import RtxKernel.Process.StressRelay

/-!
# The steps of the stress processes
-/

namespace RtxKernel

/-- The next byte is stored, or all of them are. -/
lemma storeOr_cases (l : List (Nat × UInt8)) (j : Nat) (op : Op) :
    (∃ z, l[j]? = some z ∧ storeOr l j op = .store z.1 z.2) ∨ l.length ≤ j ∧ storeOr l j op = op := by
  cases hl : l[j]? with
  | none =>
    right
    refine ⟨List.getElem?_eq_none_iff.mp hl, ?_⟩
    rw [storeOr, hl]
  | some z =>
    left
    refine ⟨z, rfl, ?_⟩
    rw [storeOr, hl]

/-- Filling in a block and sending it is work at this block. -/
lemma storeOr_worksAt {l : List (Nat × UInt8)} {j x : Nat} {op : Op}
    (hl : ∀ z ∈ l, x ≤ z.1 ∧ z.1 < x + memBlockSize) (hop : op.WorksAt (some x)) :
    (storeOr l j op).WorksAt (some x) := by
  rcases storeOr_cases l j op with ⟨z, hz, hs⟩ | ⟨-, hs⟩
  · rw [hs]
    obtain ⟨hle, hlt⟩ := hl z (List.mem_of_getElem? hz)
    exact ⟨x, rfl, hle, hlt⟩
  · rw [hs]
    exact hop

lemma StressC.queue_sub (s : StressC) : ∀ e ∈ s.queue, e ∈ s.messages := by
  intro e he
  rw [messages]
  split
  · exact List.mem_cons_of_mem _ he
  · exact he

namespace Spec.Kernel

variable {a b : Kernel} {base : Nat} {r : PcbPtr} {op : Op} {reply : Reply} {e x : Nat} {p q : UInt32}
  {sa sa' : StressA} {sb sb' : StressB} {sc sc' : StressC} {sent taken taken' : List UInt32}
  {w w' : Option Nat}

/-! ### Messages from one of the three to the next -/

/-- The message `x` is passed on to the process `p`. -/
structure Passes (a b : Kernel) (x : Nat) (p : UInt32) (w : Option Nat) : Prop where
  live : ∀ q, IsRelay q → (∃ y ∈ a.sched.live, a.sched.pid y = q) → ∃ y ∈ b.sched.live, b.sched.pid y = q
  held : ∀ q y, y ≠ x → a.Held y q → b.Held y q ∧ a.Kept b y
  mail : b.MailFits w
  reports : ∀ q, IsRelay q → reports b.pool.memory (b.mailTo q) =
    reports a.pool.memory (a.mailTo q) ++ if q = p then [number a.pool.memory x] else []

lemma live_step (hok : a.Ok base r) (hop : op ≠ .terminate) (hy : a.call op = some (reply, b)) :
    ∀ q, IsRelay q → (∃ y ∈ a.sched.live, a.sched.pid y = q) → ∃ y ∈ b.sched.live, b.sched.pid y = q := by
  rintro q - ⟨y, hlive, rfl⟩
  obtain ⟨hlive', hpid⟩ := hok.live_step hy hlive fun h => absurd h hop
  exact ⟨y, hlive', hpid⟩

lemma MailFits.send (h : a.MailFits w) (hbase : base ≠ 0) (hok : a.Ok base r) (hpost : a.Posted base)
    (hown : a.MailOwned) (hlive : ∃ y ∈ a.sched.live, a.sched.pid y = p)
    (hx : a.Held x q) (htype : typeOf a.pool.memory x = typeCountReport) (hp : a.Permits (.send p x))
    (hy : a.call (.send p x) = some (reply, b)) (he : a.Effect (.send p x) reply b) :
    reply = .code 0 ∧ a.Passes b x p w := by
  have hw : Op.WorksAt (some x) (.send p x) := rfl
  have hk := hw.preserves_at hok hown hp hx he
  obtain ⟨z, hsend, hz⟩ := Option.map_eq_some_iff.mp hy
  obtain ⟨b', s, hb, rfl⟩ := sendMessage_valid (hx.ne_zero hok hbase) (find_of_live hok hlive) hsend
  obtain ⟨rfl, rfl⟩ := Prod.mk.inj hz
  have hrx : ((b'.post x).withSched s).rx x = p := (address_header hb).1
  have hcontent : ∀ y, x + 8 ≤ y → ((b'.post x).withSched s).pool.memory y = a.pool.memory y :=
    fun y hxy => address_content hb hxy
  have htype' : typeOf ((b'.post x).withSched s).pool.memory x = typeCountReport := by
    rw [← htype]
    apply read32_congr
    intro y hxy _
    exact hcontent y hxy
  have hnumber : number ((b'.post x).withSched s).pool.memory x = number a.pool.memory x := by
    apply read32_congr
    intro y hxy _
    rw [msgField] at hxy
    exact hcontent y (by omega)
  have hkept : ∀ y ∈ a.mailbox ++ a.delayed, a.Kept ((b'.post x).withSched s) y := by
    intro y hym
    apply hk.kept y hym
    rintro rfl
    exact hx.notMem hym
  have hmail : ∀ q, IsRelay q → ((b'.post x).withSched s).mailTo q =
      a.mailTo q ++ [x].filter fun e => ((b'.post x).withSched s).rx e = q := by
    intro q hq
    refine he.mailTo hok hpost hp hk.rx hq.ne_kcd ?_
    intro hop
    cases hop
  have hold : ∀ y ∈ a.mailbox ++ a.delayed, IsRelay (((b'.post x).withSched s).rx y) →
      typeOf ((b'.post x).withSched s).pool.memory y = typeCountReport ∨ w = some y := by
    intro y hym hrel
    rw [hk.rx y hym] at hrel
    rw [(hkept y hym).typeOf]
    exact h.mail y hym hrel
  refine ⟨rfl, live_step hok (by simp) hy, fun q y hne hheld => hk.held y q hheld hne, ⟨?_, ?_, ?_⟩, ?_⟩
  · intro y hym hrel
    rcases he.mem_mail hok hym with hym | ⟨pid, hop, -⟩ | ⟨pid, delay, hop, -⟩ | ⟨d, -, -, hkcd⟩
    · exact hold y hym hrel
    · obtain ⟨-, rfl⟩ := Op.send.inj hop
      exact .inl htype'
    · cases hop
    · exact absurd hkcd hrel.ne_kcd
  · intro y hyd hrel
    rcases he.mem_delayed hok hyd with hd | ⟨pid, delay, hop, -⟩
    · rw [hk.rx y (List.mem_append_right _ hd)] at hrel
      exact h.delayed y hd hrel
    · cases hop
  · intro e hwe
    obtain ⟨hmem, hre, hte⟩ := h.wake e hwe
    refine ⟨?_, (hk.rx e hmem).trans hre, (hkept e hmem).typeOf.trans hte⟩
    rcases List.mem_append.mp hmem with hm | hd
    · have hbox : e ∈ ((b'.post x).withSched s).mailTo stressCPid := by
        rw [hmail _ (.inr rfl)]
        exact List.mem_append_left _ (mem_mailTo.mpr ⟨hm, hre⟩)
      exact List.mem_append_left _ (mem_mailTo.mp hbox).1
    · exact List.mem_append_right _ ((address_fields hb).2.1 ▸ hd)
  · intro q hq
    have hsame : reports ((b'.post x).withSched s).pool.memory (a.mailTo q) =
        reports a.pool.memory (a.mailTo q) := by
      apply reports_kept
      intro y hym
      exact hkept y (List.mem_append_left _ (mem_mailTo.mp hym).1)
    rw [hmail q hq, reports_append, hsame]
    by_cases hqp : q = p
    · rw [if_pos hqp, List.filter_cons_of_pos (by simp [hrx, hqp]), List.filter_nil,
        reports_singleton htype', hnumber]
    · rw [if_neg hqp, List.filter_cons_of_neg (by simpa [hrx] using Ne.symm hqp), List.filter_nil,
        reports_nil]

/-- A message of the process itself is put off. -/
lemma MailFits.delay {delay : UInt32} (h : a.MailFits none) (hbase : base ≠ 0) (hok : a.Ok base r)
    (hpost : a.Posted base) (hown : a.MailOwned)
    (hlive : ∃ y ∈ a.sched.live, a.sched.pid y = stressCPid) (hx : a.Held x stressCPid)
    (htype : typeOf a.pool.memory x = typeWakeup10) (hp : a.Permits (.delayedSend stressCPid x delay))
    (hy : a.call (.delayedSend stressCPid x delay) = some (reply, b))
    (he : a.Effect (.delayedSend stressCPid x delay) reply b) :
    reply = .code 0 ∧ (∀ q y, y ≠ x → a.Held y q → b.Held y q ∧ a.Kept b y) ∧ b.MailFits (some x) ∧
      ∀ q, IsRelay q → reports b.pool.memory (b.mailTo q) = reports a.pool.memory (a.mailTo q) := by
  have hw : Op.WorksAt (some x) (.delayedSend stressCPid x delay) := rfl
  have hk := hw.preserves_at hok hown hp hx he
  obtain ⟨z, hsend, hz⟩ := Option.map_eq_some_iff.mp hy
  obtain ⟨b', hb, rfl⟩ := delayedSend_valid (hx.ne_zero hok hbase) (find_of_live hok hlive) hsend
  obtain ⟨rfl, rfl⟩ := Prod.mk.inj hz
  generalize hc : b'.postDelayed x (delay + b'.ticks) = c at hy he hk ⊢
  obtain ⟨d, hd⟩ := hx.owned
  obtain ⟨-, hroom⟩ := storeIn_mail hok hpost (hd.lt hok) hd.start hx.notMem
  have hdel : c.delayed = a.delayed ++ [x] := by
    rw [← hc, postDelayed, (address_fields hb).2.1, hroom]
  have htype' : typeOf c.pool.memory x = typeWakeup10 := by
    rw [← htype, ← hc]
    refine (read32_write32_of_disjoint ?_).trans (read32_congr ?_)
    · simp only [typeField, sendTimeField]
      omega
    · intro y hxy _
      exact address_content hb hxy
  have hrx : c.rx x = stressCPid := by
    rw [← hc]
    refine (read32_write32_of_disjoint ?_).trans (address_header hb).1
    simp only [rxField, sendTimeField]
    omega
  have hkept : ∀ y ∈ a.mailbox ++ a.delayed, a.Kept c y := by
    intro y hym
    apply hk.kept y hym
    rintro rfl
    exact hx.notMem hym
  have hdelayed : ∀ y ∈ c.delayed, IsRelay (c.rx y) → some x = some y := by
    intro y hyd hrel
    rw [hdel, List.mem_append, List.mem_singleton] at hyd
    rcases hyd with hyd | rfl
    · rw [hk.rx y (List.mem_append_right _ hyd)] at hrel
      cases h.delayed y hyd hrel
    · rfl
  refine ⟨rfl, fun q y hne hheld => hk.held y q hheld hne, ⟨?_, hdelayed, ?_⟩, ?_⟩
  · intro y hym hrel
    rcases he.mem_mail hok hym with hym | ⟨pid, hop, -⟩ | ⟨pid, delay, hop, -⟩ | ⟨d, -, -, hkcd⟩
    · rw [hk.rx y hym] at hrel
      rw [(hkept y hym).typeOf]
      rcases h.mail y hym hrel with ht | hno
      · exact .inl ht
      · cases hno
    · cases hop
    · obtain ⟨-, rfl, -⟩ := Op.delayedSend.inj hop
      exact .inr rfl
    · exact absurd hkcd hrel.ne_kcd
  · rintro e hxe
    obtain rfl := Option.some.inj hxe
    exact ⟨List.mem_append_right _ (hdel ▸ by simp), hrx, htype'⟩
  · intro q hq
    have hmail : c.mailTo q = a.mailTo q := by
      have happ := he.mailTo hok hpost hp hk.rx hq.ne_kcd fun hop => by cases hop
      have hnone : Op.arrivals (.delayedSend stressCPid x delay) (.code 0) = [] := rfl
      rwa [hnone, List.filter_nil, List.append_nil] at happ
    rw [hmail]
    apply reports_kept
    intro y hym
    exact hkept y (List.mem_append_left _ (mem_mailTo.mp hym).1)

/-- A message is received by one of the two. -/
lemma MailFits.receive (h : a.MailFits w) (hr : a.Received b e)
    (hw : ∀ x, w' = some x ↔ w = some x ∧ x ≠ e) : b.MailFits w' := by
  have hrx : b.rx = a.rx := by
    funext y
    rw [Kernel.rx, hr.pool, Kernel.rx]
  have hne : ∀ y ∈ b.mailbox ++ b.delayed, y ≠ e := by
    rintro y hy rfl
    exact hr.held.notMem hy
  refine ⟨?_, ?_, ?_⟩
  · intro y hy hrel
    rw [hrx] at hrel
    rw [hr.pool]
    exact (h.mail y (hr.sub y hy) hrel).imp_right fun hwy => (hw y).mpr ⟨hwy, hne y hy⟩
  · intro y hy hrel
    rw [hrx] at hrel
    rw [hr.delayed] at hy
    exact (hw y).mpr ⟨h.delayed y hy hrel, hne y (List.mem_append_right _ (hr.delayed.symm ▸ hy))⟩
  · intro y hwy
    obtain ⟨hwy, hye⟩ := (hw y).mp hwy
    obtain ⟨hmem, hre, hte⟩ := h.wake y hwy
    rw [hrx, hr.pool]
    exact ⟨hr.stays y hmem hye, hre, hte⟩

/-! ### `stress_a` -/

lemma textBytes_mem {x n : Nat} {text : List UInt8} (hn : text.length ≤ n) :
    ∀ z ∈ textBytes x text, x ≤ z.1 ∧ z.1 < x + n := by
  intro z hz
  rw [textBytes, List.mem_map] at hz
  obtain ⟨⟨c, i⟩, hi, rfl⟩ := hz
  have hlt := (List.mem_zipIdx hi).2.1
  simp only [Nat.zero_add] at hlt
  exact ⟨Nat.le_add_right x i, Nat.add_lt_add_left (Nat.lt_of_lt_of_le hlt hn) x⟩

lemma regStores_mem : ∀ z ∈ StressA.regStores x, x ≤ z.1 ∧ z.1 < x + memBlockSize := by
  intro z hz
  rw [StressA.regStores, List.mem_append] at hz
  rcases hz with hz | hz
  · exact typeBytes_mem z hz
  · obtain ⟨hle, hlt⟩ := textBytes_mem (n := 64) (by decide) z hz
    rw [msgField] at hle hlt
    rw [memBlockSize]
    omega

/-- The process works at its block. -/
lemma a_worksAt (s : StressA) : s.op.WorksAt s.blocks.head? := by
  cases s with
  | registering regCmd j => exact storeOr_worksAt regStores_mem rfl
  | filling num numMsg j => exact storeOr_worksAt numStores_mem rfl
  | received msgRx => rfl
  | _ => trivial

lemma AHolds.head (h : a.AHolds sa) : ∀ e, sa.blocks.head? = some e → a.Held e stressAPid :=
  fun e he => h.held e (List.mem_of_head? he)

lemma AHolds.of_blocks (h : ∀ e ∈ sa.blocks, a.Held e stressAPid)
    (hf : ∀ num x j, sa ≠ .filling num x j) : a.AHolds sa :=
  ⟨h, fun num x j hs => absurd hs (hf num x j)⟩

lemma AHolds.of_block (h : a.Held x stressAPid) (hb : sa.blocks = [x])
    (hf : ∀ num x j, sa ≠ .filling num x j) : a.AHolds sa := by
  refine .of_blocks ?_ hf
  intro e he
  rw [hb, List.mem_singleton] at he
  exact he ▸ h

lemma AHolds.of_nil (hb : sa.blocks = []) : a.AHolds sa := by
  refine .of_blocks (by simp [hb]) ?_
  rintro num x j rfl
  cases hb

lemma numStores_nodup {num : UInt32} : ((StressA.numStores num x).map Prod.fst).Nodup := by
  simp [StressA.numStores, wordBytes, typeField, msgField]

/-- A report that is filled in -/
lemma report_of_written {m : Memory} {num : UInt32} {j : Nat} (h : Written m (StressA.numStores num x) j)
    (hj : (StressA.numStores num x).length ≤ j) : typeOf m x = typeCountReport ∧ number m x = num := by
  rw [Written, List.take_of_length_le hj, StressA.numStores, List.forall_mem_append] at h
  exact ⟨read32_of_written h.1, read32_of_written h.2⟩

lemma Relay.a_proper (h : a.Relay sa sb sc sent taken) (hok : a.Ok base r) (hown : a.MailOwned)
    (hcur : a.sched.currentPid = stressAPid) : a.Permits sa.op ∧ a.Respects sa.op := by
  have hne : a.sched.currentPid ≠ 0 := by
    rw [hcur]
    decide
  have hx : ∀ e, sa.blocks.head? = some e → ∃ p, a.Held e p := fun e he => ⟨_, h.holdsA.head e he⟩
  exact ⟨(a_worksAt sa).permits hne hx, (a_worksAt sa).respects hok hown hx⟩

/-- The next report is sent. -/
lemma Relay.a_send {num : UInt32} {j : Nat} (h : a.Relay (.filling num x j) sb sc sent taken)
    (hbase : base ≠ 0) (hok : a.Ok base r) (hpost : a.Posted base) (hown : a.MailOwned)
    (hj : (StressA.numStores num x).length ≤ j) (hp : a.Permits (.send stressBPid x))
    (hy : a.call (.send stressBPid x) = some (reply, b)) (he : a.Effect (.send stressBPid x) reply b) :
    b.Relay (StressA.next a.pool.memory (.filling num x j) reply) sb sc
      (sent ++ StressA.report (.filling num x j) reply) taken := by
  obtain ⟨htype, hnumber⟩ := report_of_written (h.holdsA.written num x j rfl) hj
  have hx : a.Held x stressAPid := h.holdsA.held x (by simp [StressA.blocks])
  obtain ⟨rfl, hpass⟩ := h.mail.send hbase hok hpost hown h.liveB hx htype hp hy he
  obtain ⟨hB, hmsgB⟩ := h.holdsB.kept fun y hy => hpass.held _ y (hy.ne hok hx (by decide)) hy
  obtain ⟨hC, hmsgC⟩ := h.holdsC.kept fun y hy => hpass.held _ y (hy.ne hok hx (by decide)) hy
  have hnum : num = UInt32.ofNat sent.length := h.counts
  have hreport : StressA.report (.filling num x j) (.code 0) = [num] := rfl
  rw [hreport]
  refine ⟨hpass.live _ (.inl rfl) h.liveB, hpass.live _ (.inr rfl) h.liveC, .of_nil rfl, hB, hC, hpass.mail,
    ?_, ?_, ?_⟩
  · rw [List.length_append, List.length_singleton, StressA.next, StressA.Counts, hnum]
    exact (UInt32.ofNat_add _ 1).symm
  · rw [List.length_append, List.length_singleton, List.range_succ, List.map_append, List.map_singleton,
      ← h.numbered, hnum]
  · have hflow := h.flow
    rw [reports_append, reports_append, reports_append] at hflow ⊢
    rw [hpass.reports _ (.inr rfl), hpass.reports _ (.inl rfl), if_neg (by decide), if_pos rfl,
      List.append_nil, hmsgC, hmsgB, hnumber]
    conv_lhs => rw [hflow]
    simp only [List.append_assoc]

/-- What `stress_a` does -/
theorem Relay.a_step (h : a.Relay sa sb sc sent taken) (hbase : base ≠ 0) (hok : a.Ok base r)
    (hpost : a.Posted base) (hown : a.MailOwned) (hcur : a.sched.currentPid = stressAPid)
    (hy : a.call sa.op = some (reply, b)) (he : a.Effect sa.op reply b) :
    b.Relay (sa.next a.pool.memory reply) sb sc (sent ++ sa.report reply) taken := by
  obtain ⟨hp, -⟩ := h.a_proper hok hown hcur
  have hx := h.holdsA.head
  have hnot : ¬ IsRelay a.sched.currentPid := by
    rw [hcur, IsRelay]
    decide
  -- nothing is sent to the others
  have hlocal : ∀ {s : StressA}, sa.op.SparesStress → sa.report reply = [] → b.AHolds s →
      s.Counts sent.length → b.Relay s sb sc (sent ++ sa.report reply) taken := by
    intro s hs hrep hA hcounts
    rw [hrep, List.append_nil]
    have ha := h.mail.around_work hok hpost hown hp (a_worksAt sa) hx hs (fun _ _ => hnot) hy he
    exact h.a_local hok ha hx hA hcounts
  cases sa with
  | starting =>
    rcases request_cases hok hown hy he with rfl | ⟨x, rfl, hheld, -⟩
    · exact hlocal trivial rfl (.of_nil rfl) h.counts
    · exact hlocal trivial rfl (.of_block (hcur ▸ hheld) rfl (by intro _ _ _ hs; cases hs)) h.counts
  | registering regCmd j =>
    have hheld := hx regCmd rfl
    rcases storeOr_cases (StressA.regStores regCmd) j (.send kcdPid regCmd) with ⟨z, -, hop⟩ | ⟨-, hop⟩
    · have hop : (StressA.registering regCmd j).op = .store z.1 z.2 := hop
      rw [hop] at hy hlocal
      obtain ⟨rfl, rfl⟩ := store_done hy
      exact hlocal trivial rfl (.of_block (hheld.store _) rfl (by intro _ _ _ hs; cases hs)) h.counts
    · have hop : (StressA.registering regCmd j).op = .send kcdPid regCmd := hop
      rw [hop] at hy hlocal
      obtain ⟨c, rfl⟩ := send_code hy
      exact hlocal ⟨by decide, by decide⟩ rfl (.of_nil rfl) h.counts
  | awaiting =>
    rcases receive_cases hpost hown hy he with rfl | ⟨e, t, rfl, hrcv⟩
    · exact hlocal trivial rfl (.of_nil rfl) h.counts
    · exact hlocal trivial rfl (.of_block (hcur ▸ hrcv.held) rfl (by intro _ _ _ hs; cases hs)) h.counts
  | received e =>
    obtain ⟨c, rfl⟩ := release_code hy
    rw [StressA.next]
    split_ifs
    · refine hlocal trivial rfl (.of_nil rfl) ?_
      have hzero : sent.length = 0 := h.counts
      rw [hzero]
      rfl
    · exact hlocal trivial rfl (.of_nil rfl) h.counts
  | counting num =>
    rcases request_cases hok hown hy he with rfl | ⟨x, rfl, hheld, -⟩
    · exact hlocal trivial rfl (.of_nil rfl) h.counts
    · refine hlocal trivial rfl ⟨?_, ?_⟩ h.counts
      · intro e he
        obtain rfl := List.mem_singleton.mp he
        exact hcur ▸ hheld
      · intro num' x' j hs
        obtain ⟨-, -, rfl⟩ := StressA.filling.inj hs
        exact .zero
  | filling num x j =>
    have hheld := hx x rfl
    rcases storeOr_cases (StressA.numStores num x) j (.send stressBPid x) with ⟨z, hz, hop⟩ | ⟨hj, hop⟩
    · have hop : (StressA.filling num x j).op = .store z.1 z.2 := hop
      rw [hop] at hy hlocal
      obtain ⟨rfl, rfl⟩ := store_done hy
      refine hlocal trivial rfl ⟨?_, ?_⟩ h.counts
      · intro e he
        obtain rfl := List.mem_singleton.mp he
        exact hheld.store _
      · intro num' x' j' hs
        obtain ⟨rfl, rfl, rfl⟩ := StressA.filling.inj hs
        exact (h.holdsA.written num x j rfl).succ numStores_nodup hz
    · have hop : (StressA.filling num x j).op = .send stressBPid x := hop
      rw [hop] at hy he hp
      exact h.a_send hbase hok hpost hown hj hp hy he
  | yielding num =>
    obtain ⟨rfl, -⟩ := Prod.mk.inj (Option.some.inj hy)
    exact hlocal trivial rfl (.of_nil rfl) h.counts

/-! ### `stress_b` -/

def bBlock : StressB → Option Nat
  | .received e => some e
  | .waiting => none

lemma b_worksAt (s : StressB) : s.op.WorksAt (bBlock s) := by
  cases s with
  | waiting => trivial
  | received msgRx => rfl

lemma BHolds.block (h : a.BHolds sb) : ∀ e, bBlock sb = some e → a.Held e stressBPid := by
  intro e he
  cases sb with
  | waiting => cases he
  | received x => exact Option.some.inj he ▸ h.1

lemma Relay.b_proper (h : a.Relay sa sb sc sent taken) (hok : a.Ok base r) (hown : a.MailOwned)
    (hcur : a.sched.currentPid = stressBPid) : a.Permits sb.op ∧ a.Respects sb.op := by
  have hne : a.sched.currentPid ≠ 0 := by
    rw [hcur]
    decide
  have hx : ∀ e, bBlock sb = some e → ∃ p, a.Held e p := fun e he => ⟨_, h.holdsB.block e he⟩
  exact ⟨(b_worksAt sb).permits hne hx, (b_worksAt sb).respects hok hown hx⟩

/-- What `stress_b` does -/
theorem Relay.b_step (h : a.Relay sa sb sc sent taken) (hbase : base ≠ 0) (hok : a.Ok base r)
    (hpost : a.Posted base) (hown : a.MailOwned) (hcur : a.sched.currentPid = stressBPid)
    (hy : a.call sb.op = some (reply, b)) (he : a.Effect sb.op reply b) :
    b.Relay sa (sb.next reply) sc sent taken := by
  obtain ⟨hp, -⟩ := h.b_proper hok hown hcur
  cases sb with
  | waiting =>
    rcases receive_cases hpost hown hy he with rfl | ⟨e, t, rfl, hrcv⟩
    · have ha := h.mail.around_work (x := none) (p := 0) hok hpost hown hp trivial (by simp) trivial
        (by intro _ hq; cases hq) hy he
      exact h.free ha
    · have hw : Op.WorksAt none .receive := trivial
      have hk := hw.preserves_all hok hown hp he
      have hrx : a.rx e = stressBPid := hrcv.rx.trans hcur
      have htype : typeOf a.pool.memory e = typeCountReport := by
        rcases h.mail.mail e (List.mem_append_left _ hrcv.mem) (.inl hrx) with htype | hwake
        · exact htype
        · have hc := (h.mail.wake e hwake).2.1
          rw [hrx] at hc
          exact absurd hc (by decide)
      have hmailC : b.mailTo stressCPid = a.mailTo stressCPid := by
        have happ := he.mailTo (p := stressCPid) hok hpost hp hk.rx (by decide)
          (by rw [hcur]; intros; decide)
        have hnone : StressB.waiting.op.arrivals (.envelope (some (e, t))) = [] := rfl
        rwa [hnone, List.filter_nil, List.append_nil] at happ
      have hmailB := hrcv.mailTo
      rw [hcur] at hmailB
      have hmail : b.MailFits sc.wake := by
        apply h.mail.receive hrcv
        intro y
        refine ⟨fun hwake => ⟨hwake, ?_⟩, And.left⟩
        rintro rfl
        rw [(h.mail.wake y hwake).2.2] at htype
        exact absurd htype (by decide)
      obtain ⟨hC, hmsgC⟩ := h.holdsC.kept fun y hy => hk.held y _ hy trivial
      have hlive := live_step hok (by simp [StressB.op]) hy
      refine ⟨hlive _ (.inl rfl) h.liveB, hlive _ (.inr rfl) h.liveC,
        h.holdsA.kept fun y hy => hk.held y _ hy trivial, ⟨hcur ▸ hrcv.held, hrcv.pool ▸ htype⟩, hC, hmail,
        h.counts, h.numbered, ?_⟩
      have hflow := h.flow
      rw [hmailB] at hflow
      rw [hrcv.pool, hmailC]
      exact hflow
  | received x =>
    obtain ⟨hx, htype⟩ := h.holdsB
    obtain ⟨rfl, hpass⟩ := h.mail.send hbase hok hpost hown h.liveC hx htype hp hy he
    obtain ⟨hC, hmsgC⟩ := h.holdsC.kept fun y hy => hpass.held _ y (hy.ne hok hx (by decide)) hy
    refine ⟨hpass.live _ (.inl rfl) h.liveB, hpass.live _ (.inr rfl) h.liveC,
      h.holdsA.kept fun y hy => hpass.held _ y (hy.ne hok hx (by decide)) hy, trivial, hC, hpass.mail,
      h.counts, h.numbered, ?_⟩
    have hflow := h.flow
    rw [reports_append, reports_append, reports_append] at hflow ⊢
    rw [hpass.reports _ (.inr rfl), hpass.reports _ (.inl rfl), if_pos rfl, if_neg (by decide),
      List.append_nil, hmsgC]
    rw [StressB.messages, reports_singleton htype] at hflow
    rw [StressB.next, StressB.messages, reports_nil]
    simpa only [List.append_assoc, List.nil_append] using hflow

/-! ### `stress_c` -/

def cBlock (s : StressC) : Option Nat :=
  match s.point with
  | .took e => some e
  | .printing procC _ => some procC
  | .filling _ => some s.hibernate
  | .ending _ => some s.hibernate
  | _ => none

lemma procStores_mem : ∀ z ∈ StressC.procStores x, x ≤ z.1 ∧ z.1 < x + memBlockSize := by
  intro z hz
  obtain ⟨hle, hlt⟩ := textBytes_mem (n := 64) (by decide) z hz
  rw [msgField] at hle hlt
  rw [memBlockSize]
  omega

/-- The process works at its block. -/
lemma c_worksAt (s : StressC) : s.op.WorksAt (cBlock s) := by
  obtain ⟨point, queue, hibernate⟩ := s
  cases point with
  | printing procC j => exact storeOr_worksAt procStores_mem rfl
  | filling j => exact storeOr_worksAt typeBytes_mem rfl
  | took e => rfl
  | ending hibernated => rfl
  | _ => trivial

lemma CHolds.block (h : a.CHolds sc) (hend : sc.point ≠ .ending false) :
    ∀ e, cBlock sc = some e → a.Held e stressCPid := by
  intro e he
  apply h.held
  apply List.mem_append_left
  obtain ⟨point, queue, hibernate⟩ := sc
  cases point with
  | ending hibernated =>
    cases hibernated with
    | true => exact List.mem_singleton.mpr (Option.some.inj he).symm
    | false => exact absurd rfl hend
  | took x => exact List.mem_singleton.mpr (Option.some.inj he).symm
  | printing procC j => exact List.mem_singleton.mpr (Option.some.inj he).symm
  | filling j => exact List.mem_singleton.mpr (Option.some.inj he).symm
  | _ => cases he

lemma CHolds.block_notMem (h : a.CHolds sc) (hend : sc.point ≠ .ending false) (hx : cBlock sc = some x) :
    x ∉ sc.queue := by
  have hnd := h.nodup
  obtain ⟨point, queue, hibernate⟩ := sc
  cases point with
  | ending hibernated =>
    cases hibernated with
    | true => exact Option.some.inj hx ▸ (List.nodup_cons.mp hnd).1
    | false => exact absurd rfl hend
  | took e => exact Option.some.inj hx ▸ (List.nodup_cons.mp hnd).1
  | printing procC j => exact Option.some.inj hx ▸ (List.nodup_cons.mp hnd).1
  | filling j => exact Option.some.inj hx ▸ (List.nodup_cons.mp hnd).1
  | _ => cases hx

lemma Relay.c_proper (h : a.Relay sa sb sc sent taken) (hok : a.Ok base r) (hown : a.MailOwned)
    (hcur : a.sched.currentPid = stressCPid) (hend : sc.point ≠ .ending false) :
    a.Permits sc.op ∧ a.Respects sc.op := by
  have hne : a.sched.currentPid ≠ 0 := by
    rw [hcur]
    decide
  have hx : ∀ e, cBlock sc = some e → ∃ p, a.Held e p := fun e he => ⟨_, h.holdsC.block hend e he⟩
  exact ⟨(c_worksAt sc).permits hne hx, (c_worksAt sc).respects hok hown hx⟩

/-- The process goes on, with the queue `q` and the block `x`, or none. -/
structure Goes (s : StressC) (q : List Nat) (x : Option Nat) : Prop where
  queue : s.queue = q
  work : s.work = x.toList
  messages : s.messages = q
  point : s.point ≠ .receiving

lemma CHolds.next {y : Option Nat} (h : a.CHolds sc) (hg : Goes sc' sc.queue y)
    (hqueue : ∀ e ∈ sc.queue, b.Held e stressCPid ∧ a.Kept b e)
    (hy : ∀ e, y = some e → b.Held e stressCPid ∧ e ∉ sc.queue)
    (hwritten : ∀ j, sc'.point = .filling j →
      Written b.pool.memory (StressC.hibStores sc'.hibernate) j) : b.CHolds sc' where
  held := by
    intro e he
    rw [hg.work, hg.queue] at he
    rcases List.mem_append.mp he with he | he
    · exact (hy e (Option.mem_toList.mp he)).1
    · exact (hqueue e he).1
  nodup := by
    have hnodup := (List.nodup_append.mp h.nodup).2.1
    rw [hg.work, hg.queue]
    cases y with
    | none => exact hnodup
    | some x => exact List.nodup_cons.mpr ⟨(hy x rfl).2, hnodup⟩
  empty := fun hp => absurd hp hg.point
  report := by
    intro e he
    rw [hg.messages] at he
    rw [(hqueue e he).2.typeOf]
    exact h.report e (sc.queue_sub e he)
  written := hwritten

/-- A message is received, into the hand or into the queue, or it wakes the process. -/
lemma Relay.c_receive (h : a.Relay sa sb sc sent taken) (hok : a.Ok base r) (hpost : a.Posted base)
    (hown : a.MailOwned) (hcur : a.sched.currentPid = stressCPid) (hrcv : a.Received b e)
    (hy : a.call .receive = some (reply, b)) (he : a.Effect .receive reply b) (hC : b.CHolds sc')
    (hmail : b.MailFits sc'.wake)
    (hmsg : reports a.pool.memory sc'.messages = reports a.pool.memory (sc.messages ++ [e])) :
    b.Relay sa sb sc' sent taken := by
  have hw : Op.WorksAt none .receive := trivial
  have hp : a.Permits .receive := by
    change a.sched.currentPid ≠ 0
    rw [hcur]
    decide
  have hk := hw.preserves_all hok hown hp he
  have hmailB : b.mailTo stressBPid = a.mailTo stressBPid := by
    have happ := he.mailTo (p := stressBPid) hok hpost hp hk.rx (by decide)
      (by rw [hcur]; intros; decide)
    have hnone : Op.receive.arrivals reply = [] := rfl
    rwa [hnone, List.filter_nil, List.append_nil] at happ
  have hmailC := hrcv.mailTo
  rw [hcur] at hmailC
  have hlive := live_step hok (by simp) hy
  refine ⟨hlive _ (.inl rfl) h.liveB, hlive _ (.inr rfl) h.liveC,
    h.holdsA.kept fun y hy => hk.held y _ hy trivial,
    (h.holdsB.kept fun y hy => hk.held y _ hy trivial).1, hC, hmail, h.counts, h.numbered, ?_⟩
  have hflow := h.flow
  rw [hmailC, ← List.singleton_append, List.append_assoc, ← List.append_assoc, reports_append, ← hmsg,
    ← reports_append] at hflow
  rw [hrcv.pool, hmailB]
  exact hflow

/-- A message of the process is not in its queue. -/
lemma CHolds.notMem (h : a.CHolds sc) (hmem : e ∈ a.mailbox) : e ∉ sc.queue := by
  intro he
  exact (h.held e (List.mem_append_right _ he)).notMem (List.mem_append_left _ hmem)

/-- In the hibernation loop -/
lemma Relay.c_wakeOr {queue : List Nat} {hibernate : Nat} (hok : a.Ok base r)
    (h : a.Relay sa sb ⟨.asleep, queue, hibernate⟩ sent taken) (hpost : a.Posted base) (hown : a.MailOwned)
    (hcur : a.sched.currentPid = stressCPid) (hrcv : a.Received b e)
    (hy : a.call .receive = some (reply, b)) (he : a.Effect .receive reply b) :
    b.Relay sa sb (StressC.wakeOr a.pool.memory ⟨.asleep, queue, hibernate⟩ e) sent taken := by
  have hw : Op.WorksAt none .receive := trivial
  have hp : a.Permits .receive := by
    change a.sched.currentPid ≠ 0
    rw [hcur]
    decide
  have hk := hw.preserves_all hok hown hp he
  have hheld : b.Held e stressCPid := hcur ▸ hrcv.held
  have hqueue : ∀ x ∈ queue, b.Held x stressCPid ∧ a.Kept b x :=
    fun x hx => hk.held x _ (h.holdsC.held x hx) trivial
  have hnot : e ∉ queue := h.holdsC.notMem hrcv.mem
  have hreport : ∀ x ∈ queue, typeOf b.pool.memory x = typeCountReport := by
    intro x hx
    rw [hrcv.pool]
    exact h.holdsC.report x hx
  have hfits := h.mail.mail e (List.mem_append_left _ hrcv.mem) (.inr (hrcv.rx.trans hcur))
  rw [StressC.wakeOr]
  split_ifs with htype
  · have hsome : hibernate = e := by
      rcases hfits with hfour | hwake
      · rw [htype] at hfour
        exact absurd hfour (by decide)
      · exact Option.some.inj hwake
    subst hsome
    refine h.c_receive hok hpost hown hcur hrcv hy he ⟨?_, List.nodup_cons.mpr ⟨hnot, h.holdsC.nodup⟩,
      by simp, hreport, by simp⟩ ?_ ?_
    · intro x hx
      rcases List.mem_cons.mp hx with rfl | hx
      · exact hheld
      · exact (hqueue x hx).1
    · apply h.mail.receive hrcv
      intro x
      constructor
      · intro hno
        cases hno
      · rintro ⟨hsome, hne⟩
        exact absurd (Option.some.inj hsome).symm hne
    · have hnone : reports a.pool.memory [hibernate] = [] := by
        apply reports_of_not
        intro x hx
        rw [List.mem_singleton.mp hx, htype]
        decide
      rw [reports_append, hnone, List.append_nil]
      rfl
  · have hfour : typeOf a.pool.memory e = typeCountReport := by
      rcases hfits with hfour | hwake
      · exact hfour
      · exact absurd (h.mail.wake e hwake).2.2 htype
    refine h.c_receive hok hpost hown hcur hrcv hy he ⟨?_, ?_, by simp, ?_, by simp⟩ ?_ rfl
    · intro x hx
      change x ∈ queue ++ [e] at hx
      rcases List.mem_append.mp hx with hx | hx
      · exact (hqueue x hx).1
      · rw [List.mem_singleton.mp hx]
        exact hheld
    · have hnd : queue.Nodup := h.holdsC.nodup
      change (queue ++ [e]).Nodup
      refine List.nodup_append.mpr ⟨hnd, List.nodup_singleton e, ?_⟩
      rintro x hx y hy rfl
      exact hnot (List.mem_singleton.mp hy ▸ hx)
    · intro x hx
      rcases List.mem_append.mp hx with hx | hx
      · exact hreport x hx
      · rw [List.mem_singleton.mp hx, hrcv.pool]
        exact hfour
    · apply h.mail.receive hrcv
      intro x
      refine ⟨fun hx => ⟨hx, ?_⟩, And.left⟩
      rintro rfl
      exact htype (h.mail.wake x hx).2.2

/-- The message that is to wake the process is put off. -/
lemma Relay.c_delay {queue : List Nat} {hibernate j : Nat}
    (h : a.Relay sa sb ⟨.filling j, queue, hibernate⟩ sent taken) (hbase : base ≠ 0) (hok : a.Ok base r)
    (hpost : a.Posted base) (hown : a.MailOwned)
    (hj : (StressC.hibStores hibernate).length ≤ j)
    (hp : a.Permits (.delayedSend stressCPid hibernate 10000))
    (hy : a.call (.delayedSend stressCPid hibernate 10000) = some (reply, b))
    (he : a.Effect (.delayedSend stressCPid hibernate 10000) reply b) :
    b.Relay sa sb (StressC.next a.pool.memory ⟨.filling j, queue, hibernate⟩ reply) sent taken := by
  have hwritten := h.holdsC.written j rfl
  rw [Written, List.take_of_length_le hj] at hwritten
  have htype : typeOf a.pool.memory hibernate = typeWakeup10 := read32_of_written hwritten
  have hx : a.Held hibernate stressCPid := h.holdsC.held hibernate (List.mem_cons_self)
  obtain ⟨rfl, hheld, hmail, hreports⟩ :=
    h.mail.delay hbase hok hpost hown h.liveC hx htype hp hy he
  have hothers : ∀ q, q ≠ stressCPid → ∀ y, a.Held y q → b.Held y q ∧ a.Kept b y := by
    intro q hq y hy
    exact hheld q y (hy.ne hok hx hq) hy
  obtain ⟨hB, hmsgB⟩ := h.holdsB.kept (hothers _ (by decide))
  obtain ⟨hnot, hnd⟩ := List.nodup_cons.mp h.holdsC.nodup
  have hqueue : ∀ y ∈ queue, b.Held y stressCPid ∧ a.Kept b y := by
    intro y hmem
    apply hheld _ y
    · rintro rfl
      exact hnot hmem
    · exact h.holdsC.held y (List.mem_cons_of_mem _ hmem)
  have hlive := live_step hok (by simp) hy
  refine ⟨hlive _ (.inl rfl) h.liveB, hlive _ (.inr rfl) h.liveC,
    h.holdsA.kept (hothers _ (by decide)), hB, ?_, hmail, h.counts, h.numbered, ?_⟩
  · refine h.holdsC.next (y := none) ⟨rfl, rfl, rfl, ?_⟩ hqueue (by simp) ?_
    · rintro ⟨⟩
    · rintro j' ⟨⟩
  · have hqueue' : reports b.pool.memory queue = reports a.pool.memory queue :=
      reports_kept fun y hy => (hqueue y hy).2
    have hflow : sent = taken ++ reports a.pool.memory
        (queue ++ (a.mailTo stressCPid ++ (sb.messages ++ a.mailTo stressBPid))) := h.flow
    rw [← reports_flow hqueue' hmsgB hreports] at hflow
    exact hflow

/-- The beginning of a turn -/
lemma CHolds.top {queue : List Nat} {hibernate : Nat} (h : a.CHolds ⟨.yielding, queue, hibernate⟩) :
    a.CHolds (StressC.top ⟨.yielding, queue, hibernate⟩) := by
  cases queue with
  | nil => exact ⟨h.held, h.nodup, fun _ => rfl, h.report, by simp [StressC.top]⟩
  | cons e queue => exact ⟨h.held, h.nodup, by simp [StressC.top], h.report, by simp [StressC.top]⟩

lemma Relay.append_nil (h : a.Relay sa sb sc sent taken) : a.Relay sa sb sc sent (taken ++ []) := by
  rwa [List.append_nil]

section CStep

variable (h : a.Relay sa sb sc sent taken) (hok : a.Ok base r) (hpost : a.Posted base) (hown : a.MailOwned)
  (hcur : a.sched.currentPid = stressCPid) (hy : a.call sc.op = some (reply, b)) (he : a.Effect sc.op reply b)

include h hok hpost hown hcur hy he

/-- The process waits. -/
lemma Relay.c_wait (hend : sc.point ≠ .ending false) (hblock : cBlock sc = none)
    (hq : sc.op = .receive → sc.op.isQuiet reply = true) (hs : sc.op.SparesStress) :
    b.Relay sa sb sc sent taken := by
  obtain ⟨hp, -⟩ := h.c_proper hok hown hcur hend
  have hw := c_worksAt sc
  rw [hblock] at hw
  refine h.free (h.mail.around_work (p := 0) hok hpost hown hp hw (by simp) hs ?_ hy he)
  intro hop hq'
  rw [hq hop] at hq'
  cases hq'

/-- The process works at its block, and goes on with the block `y`. -/
lemma Relay.c_goes {y : Option Nat} (hend : sc.point ≠ .ending false) (hs : sc.op.SparesStress)
    (hop : sc.op ≠ .receive) (hwake : sc'.wake = sc.wake) (hg : Goes sc' sc.queue y)
    (hhold : ∀ e, y = some e → b.Held e stressCPid ∧ e ∉ sc.queue)
    (hwritten : ∀ j, sc'.point = .filling j → Written b.pool.memory (StressC.hibStores sc'.hibernate) j)
    (hmsg : sc.report a.pool.memory reply ++ reports a.pool.memory sc.queue =
      reports a.pool.memory sc.messages) :
    b.Relay sa sb sc' sent (taken ++ sc.report a.pool.memory reply) := by
  obtain ⟨hp, -⟩ := h.c_proper hok hown hcur hend
  have hx := h.holdsC.block hend
  have ha := h.mail.around_work hok hpost hown hp (c_worksAt sc) hx hs (fun hrcv => absurd hrcv hop) hy he
  have hkept : ∀ e ∈ sc.queue, b.Held e stressCPid ∧ a.Kept b e := by
    intro e hmem
    refine ha.held _ c_mem e ?_ (h.holdsC.held e (List.mem_append_right _ hmem))
    intro hblock
    exact h.holdsC.block_notMem hend hblock hmem
  refine h.c_local hok ha hx hwake (h.holdsC.next hg hkept hhold hwritten) ?_
  rw [hg.messages, reports_kept fun e he => (hkept e he).2, List.append_assoc, hmsg]

lemma Relay.c_receiving (hpoint : sc.point = .receiving) :
    b.Relay sa sb (sc.next a.pool.memory reply) sent (taken ++ sc.report a.pool.memory reply) := by
  obtain ⟨point, queue, hibernate⟩ := sc
  obtain rfl : point = _ := hpoint
  rcases receive_cases hpost hown hy he with rfl | ⟨e, t, rfl, hrcv⟩
  · exact (h.c_wait hok hpost hown hcur hy he nofun rfl (fun _ => rfl) trivial).append_nil
  · have hnil : queue = [] := h.holdsC.empty rfl
    subst hnil
    have htype : typeOf a.pool.memory e = typeCountReport := by
      rcases h.mail.mail e (List.mem_append_left _ hrcv.mem) (.inr (hrcv.rx.trans hcur)) with ht | hno
      · exact ht
      · cases hno
    have hrelay : b.Relay sa sb ⟨.took e, [], hibernate⟩ sent taken := by
      refine h.c_receive hok hpost hown hcur hrcv hy he ⟨?_, List.nodup_singleton e, by simp, ?_, by simp⟩ ?_
        rfl
      · intro x hmem
        rw [List.mem_singleton.mp hmem]
        exact hcur ▸ hrcv.held
      · intro x hmem
        rw [List.mem_singleton.mp hmem, hrcv.pool]
        exact htype
      · apply h.mail.receive hrcv
        intro x
        exact ⟨fun hno => (by cases hno), fun hno => (by cases hno.1)⟩
    exact hrelay.append_nil

lemma Relay.c_took (hpoint : sc.point = .took e) :
    b.Relay sa sb (sc.next a.pool.memory reply) sent (taken ++ sc.report a.pool.memory reply) := by
  obtain ⟨point, queue, hibernate⟩ := sc
  obtain rfl : point = _ := hpoint
  obtain ⟨c, rfl⟩ := release_code hy
  have htype : typeOf a.pool.memory e = typeCountReport := h.holdsC.report e List.mem_cons_self
  have hmsg : StressC.report a.pool.memory ⟨.took e, queue, hibernate⟩ (.code c) ++
      reports a.pool.memory queue = reports a.pool.memory (e :: queue) := by
    rw [reports_cons htype]
    exact congrArg (· ++ _) (if_pos htype)
  change b.Relay sa sb ⟨if StressC.Tires a.pool.memory e then .calling else .ending false, queue, hibernate⟩
    sent _
  split_ifs
  · exact h.c_goes hok hpost hown hcur hy he (y := none) nofun trivial nofun rfl ⟨rfl, rfl, rfl, nofun⟩
      nofun nofun hmsg
  · exact h.c_goes hok hpost hown hcur hy he (y := none) nofun trivial nofun rfl ⟨rfl, rfl, rfl, nofun⟩
      nofun nofun hmsg

lemma Relay.c_calling (hpoint : sc.point = .calling) :
    b.Relay sa sb (sc.next a.pool.memory reply) sent (taken ++ sc.report a.pool.memory reply) := by
  obtain ⟨point, queue, hibernate⟩ := sc
  obtain rfl : point = _ := hpoint
  rcases request_cases hok hown hy he with rfl | ⟨x, rfl, hheld, hnew⟩
  · exact (h.c_wait hok hpost hown hcur hy he nofun rfl nofun trivial).append_nil
  · refine h.c_goes hok hpost hown hcur hy he (y := some x) nofun trivial nofun rfl ⟨rfl, rfl, rfl, nofun⟩ ?_
      nofun rfl
    rintro e hxe
    obtain rfl := Option.some.inj hxe
    exact ⟨hcur ▸ hheld, fun hmem => hnew _ (h.holdsC.held x (List.mem_append_right _ hmem))⟩

lemma Relay.c_printing {procC j : Nat} (hpoint : sc.point = .printing procC j) :
    b.Relay sa sb (sc.next a.pool.memory reply) sent (taken ++ sc.report a.pool.memory reply) := by
  obtain ⟨point, queue, hibernate⟩ := sc
  obtain rfl : point = _ := hpoint
  have hend : StressC.Point.printing procC j ≠ .ending false := nofun
  have hheld := h.holdsC.block hend procC rfl
  have hnot := h.holdsC.block_notMem hend (x := procC) rfl
  have hcall := hy
  rcases storeOr_cases (StressC.procStores procC) j (.send crtPid procC) with ⟨z, -, hop⟩ | ⟨-, hop⟩
  · have hop : StressC.op ⟨.printing procC j, queue, hibernate⟩ = .store z.1 z.2 := hop
    rw [hop] at hcall
    obtain ⟨rfl, rfl⟩ := store_done hcall
    refine h.c_goes hok hpost hown hcur hy he (y := some procC) hend ?_ ?_ rfl ⟨rfl, rfl, rfl, nofun⟩ ?_
      nofun rfl
    · rw [hop]
      trivial
    · rw [hop]
      nofun
    · intro e he
      obtain rfl := Option.some.inj he
      exact ⟨hheld.store _, hnot⟩
  · have hop : StressC.op ⟨.printing procC j, queue, hibernate⟩ = .send crtPid procC := hop
    rw [hop] at hcall
    obtain ⟨c, rfl⟩ := send_code hcall
    refine h.c_goes hok hpost hown hcur hy he (y := none) hend ?_ ?_ rfl ⟨rfl, rfl, rfl, nofun⟩ nofun nofun
      rfl
    · rw [hop]
      exact ⟨by decide, by decide⟩
    · rw [hop]
      nofun

lemma Relay.c_preparing (hpoint : sc.point = .preparing) :
    b.Relay sa sb (sc.next a.pool.memory reply) sent (taken ++ sc.report a.pool.memory reply) := by
  obtain ⟨point, queue, hibernate⟩ := sc
  obtain rfl : point = _ := hpoint
  rcases request_cases hok hown hy he with rfl | ⟨x, rfl, hheld, hnew⟩
  · exact (h.c_wait hok hpost hown hcur hy he nofun rfl nofun trivial).append_nil
  · refine h.c_goes hok hpost hown hcur hy he (y := some x) nofun trivial nofun rfl ⟨rfl, rfl, rfl, nofun⟩ ?_
      ?_ rfl
    · rintro e hxe
      obtain rfl := Option.some.inj hxe
      exact ⟨hcur ▸ hheld, fun hmem => hnew _ (h.holdsC.held x (List.mem_append_right _ hmem))⟩
    · intro j hj
      obtain rfl := StressC.Point.filling.inj hj
      exact .zero

lemma Relay.c_filling {j : Nat} (hbase : base ≠ 0) (hpoint : sc.point = .filling j) :
    b.Relay sa sb (sc.next a.pool.memory reply) sent (taken ++ sc.report a.pool.memory reply) := by
  obtain ⟨point, queue, hibernate⟩ := sc
  obtain rfl : point = _ := hpoint
  have hend : StressC.Point.filling j ≠ .ending false := nofun
  have hheld := h.holdsC.block hend hibernate rfl
  have hnot := h.holdsC.block_notMem hend (x := hibernate) rfl
  rcases storeOr_cases (StressC.hibStores hibernate) j (.delayedSend stressCPid hibernate 10000) with
    ⟨z, hz, hop⟩ | ⟨hj, hop⟩
  · have hop : StressC.op ⟨.filling j, queue, hibernate⟩ = .store z.1 z.2 := hop
    have hcall := hy
    rw [hop] at hcall
    obtain ⟨rfl, rfl⟩ := store_done hcall
    refine h.c_goes hok hpost hown hcur hy he (y := some hibernate) hend ?_ ?_ rfl ⟨rfl, rfl, rfl, nofun⟩ ?_
      ?_ rfl
    · rw [hop]
      trivial
    · rw [hop]
      nofun
    · intro e he
      obtain rfl := Option.some.inj he
      exact ⟨hheld.store _, hnot⟩
    · intro j' hj'
      obtain rfl := StressC.Point.filling.inj hj'
      exact (h.holdsC.written j rfl).succ (by simp [StressC.hibStores, wordBytes]) hz
  · have hop : StressC.op ⟨.filling j, queue, hibernate⟩ = .delayedSend stressCPid hibernate 10000 := hop
    obtain ⟨hp, -⟩ := h.c_proper hok hown hcur hend
    rw [hop] at hy he hp
    exact (h.c_delay hbase hok hpost hown hj hp hy he).append_nil

lemma Relay.c_asleep (hpoint : sc.point = .asleep) :
    b.Relay sa sb (sc.next a.pool.memory reply) sent (taken ++ sc.report a.pool.memory reply) := by
  obtain ⟨point, queue, hibernate⟩ := sc
  obtain rfl : point = _ := hpoint
  rcases receive_cases hpost hown hy he with rfl | ⟨e, t, rfl, hrcv⟩
  · exact (h.c_wait hok hpost hown hcur hy he nofun rfl (fun _ => rfl) trivial).append_nil
  · exact (h.c_wakeOr hok hpost hown hcur hrcv hy he).append_nil

/-- The end of a turn, in which the next one begins -/
lemma Relay.c_yielding (hpoint : sc.point = .yielding) :
    b.Relay sa sb (sc.next a.pool.memory reply) sent (taken ++ sc.report a.pool.memory reply) := by
  obtain ⟨point, queue, hibernate⟩ := sc
  obtain rfl : point = _ := hpoint
  obtain ⟨rfl, -⟩ := Prod.mk.inj (Option.some.inj hy)
  have hend : StressC.Point.yielding ≠ .ending false := nofun
  obtain ⟨hp, -⟩ := h.c_proper hok hown hcur hend
  have hx := h.holdsC.block hend
  have ha := h.mail.around_work (x := none) hok hpost hown hp trivial hx trivial nofun hy he
  obtain ⟨hC, hmsgC⟩ := h.holdsC.kept fun y hy => ha.held _ c_mem y nofun hy
  have hrelay : b.Relay sa sb (StressC.top ⟨.yielding, queue, hibernate⟩) sent taken := by
    refine h.c_local hok ha hx ?_ hC.top ?_
    · cases queue <;> rfl
    · cases queue
      · exact congrArg _ hmsgC
      · exact congrArg _ hmsgC
  exact hrelay.append_nil

/-- What `stress_c` does, when the release of `hibernate` without a hibernation is left out -/
theorem Relay.c_step (hbase : base ≠ 0) (hend : sc.point ≠ .ending false) :
    b.Relay sa sb (sc.next a.pool.memory reply) sent (taken ++ sc.report a.pool.memory reply) := by
  cases hpoint : sc.point with
  | receiving => exact h.c_receiving hok hpost hown hcur hy he hpoint
  | took e => exact h.c_took hok hpost hown hcur hy he hpoint
  | calling => exact h.c_calling hok hpost hown hcur hy he hpoint
  | printing procC j => exact h.c_printing hok hpost hown hcur hy he hpoint
  | preparing => exact h.c_preparing hok hpost hown hcur hy he hpoint
  | filling j => exact h.c_filling hok hpost hown hcur hy he hbase hpoint
  | asleep => exact h.c_asleep hok hpost hown hcur hy he hpoint
  | yielding => exact h.c_yielding hok hpost hown hcur hy he hpoint
  | ending hibernated =>
    obtain ⟨point, queue, hibernate⟩ := sc
    obtain rfl : point = _ := hpoint
    obtain ⟨c, rfl⟩ := release_code hy
    exact h.c_goes hok hpost hown hcur hy he (y := none) hend trivial nofun rfl ⟨rfl, rfl, rfl, nofun⟩ nofun
      nofun rfl

end CStep

/-- The release of `hibernate` without a hibernation, when it does nothing -/
lemma Relay.c_skip {m : Memory} {c : UInt32} (h : a.Relay sa sb sc sent taken)
    (hend : sc.point = .ending false) :
    a.Relay sa sb (sc.next m (.code c)) sent (taken ++ sc.report m (.code c)) := by
  obtain ⟨point, queue, hibernate⟩ := sc
  obtain rfl : point = .ending false := hend
  change a.Relay sa sb ⟨.yielding, queue, hibernate⟩ sent (taken ++ [])
  rw [List.append_nil]
  refine ⟨h.liveB, h.liveC, h.holdsA, h.holdsB, ?_, h.mail, h.counts, h.numbered, h.flow⟩
  exact ⟨h.holdsC.held, h.holdsC.nodup, by simp, h.holdsC.report, by simp⟩

end Spec.Kernel

end RtxKernel
