import RtxKernel.Kernel.Early
import RtxKernel.Process.StressSteps

/-!
# Runs of the stress processes

Along every run in which `stress_c` never comes to the release of `hibernate`, without having hibernated in
this turn, while the block there is one of its own, it frees nothing that is still in use, and takes up the
reports in order (`stress_in_order`). In the run `recycled` it frees the third report.
-/

namespace RtxKernel

lemma KernelRep.mailTo {k : Kernel} {a : Spec.Kernel} (h : KernelRep k a)
    (hle : a.mailbox.length ≤ memBlockCount) (p : UInt32) : k.mailTo p = a.mailTo p := by
  have hrx : k.rx = a.rx := funext h.rx
  rw [Kernel.mailTo, h.mailbox.filterMap_range hle, hrx, Spec.Kernel.mailTo]

namespace Stress

/-- The relation between the state of the system and the reports -/
def Good (priority : Fin 6 → UInt8) (base : Nat) (s : Stress) : Prop :=
  ∃ a r, Orderly priority base s.kernel a r ∧ a.Relay s.a s.b s.c s.sent s.taken

variable {priority : Fin 6 → UInt8} {base hibernate : Nat} {k₀ : Kernel} {s t : Stress} {x : Action}

lemma Good.start (hprio : ∀ i, priority i ≤ 4) (hboot : boot priority base = some k₀) :
    (start k₀ hibernate).Good priority base := by
  obtain ⟨a, r, ho, hfresh⟩ := Orderly.boot hprio hboot
  refine ⟨a, r, ho, ?_, ?_, .of_nil rfl, trivial, ⟨?_, ?_, fun _ => rfl, ?_, ?_⟩, ⟨?_, ?_, ?_⟩, rfl, rfl, ?_⟩
  · exact hfresh.lives (stressBPid, 2) (by simp [initBlocks, stressBPid])
  · exact hfresh.lives (stressCPid, 1) (by simp [initBlocks, stressCPid])
  · simp [Stress.start, StressC.work]
  · simp [Stress.start, StressC.work]
  · simp [Stress.start, StressC.messages]
  · simp [Stress.start]
  · simp [hfresh.mailbox, hfresh.delayed]
  · simp [hfresh.delayed]
  · simp [Stress.start, StressC.wake]
  · simp [Stress.start, StressC.messages, StressB.messages, Spec.Kernel.mailTo, hfresh.mailbox, reports]

/-- What the condition says in the abstract kernel -/
lemma Forgets.not_owned {a : Spec.Kernel} {r : PcbPtr} (h : s.Forgets) (ho : Orderly priority base s.kernel a r)
    (hcur : a.sched.currentPid = stressCPid) (hpoint : s.c.point = .ending false) :
    ∀ c ∈ a.pool.used, a.pool.start c = s.c.hibernate → a.pool.pid c ≠ a.sched.currentPid := by
  intro c hc hstart
  rw [hcur, ← ho.rep.pool.pid]
  rw [← ho.rep.pool.start] at hstart
  exact h (ho.rep.currentPid.trans hcur) hpoint c (ho.ok.pool.lt_of_mem (q := .usedBlocks) hc) hstart

/-- One step of the system -/
theorem Good.step (hbase : base ≠ 0) (h : s.Good priority base) (hx : Step s x t)
    (hforgets : x = .own → s.Forgets) : t.Good priority base := by
  obtain ⟨a, r, ho, hrelay⟩ := h
  have hmem := ho.rep.pool.memory
  cases x with
  | call op =>
    rw [Step, Stress.step] at hx
    split_ifs at hx with hfree
    obtain ⟨⟨reply, k'⟩, hcall, rfl⟩ := Option.map_eq_some_iff.mp hx
    obtain ⟨b, r', hn⟩ := ho.step hfree.1.2.1 hcall
    refine ⟨b, r', hn.orderly, hrelay.free ?_⟩
    exact hrelay.mail.around_free ho.ok ho.posted ho.mailOwned hn.permits hn.respects
      (ho.rep.outside ho.ok hfree.1) hfree.2 hn.call hn.effect
  | own =>
    rw [Step, Stress.step, ho.rep.currentPid, hmem] at hx
    split_ifs at hx with hcurA hcurB hcurC
    · obtain ⟨⟨reply, k'⟩, hcall, rfl⟩ := Option.map_eq_some_iff.mp hx
      obtain ⟨hp, hr⟩ := hrelay.a_proper ho.ok ho.mailOwned hcurA
      obtain ⟨b, r', hn⟩ := ho.step_of_permits hp hr hcall
      exact ⟨b, r', hn.orderly,
        hrelay.a_step hbase ho.ok ho.posted ho.mailOwned hcurA hn.call hn.effect⟩
    · obtain ⟨⟨reply, k'⟩, hcall, rfl⟩ := Option.map_eq_some_iff.mp hx
      obtain ⟨hp, hr⟩ := hrelay.b_proper ho.ok ho.mailOwned hcurB
      obtain ⟨b, r', hn⟩ := ho.step_of_permits hp hr hcall
      exact ⟨b, r', hn.orderly,
        hrelay.b_step hbase ho.ok ho.posted ho.mailOwned hcurB hn.call hn.effect⟩
    · obtain ⟨⟨reply, k'⟩, hcall, rfl⟩ := Option.map_eq_some_iff.mp hx
      by_cases hend : s.c.point = .ending false
      · obtain ⟨code, -, hy⟩ :=
          ho.ok.release_rejected ((hforgets rfl).not_owned ho hcurC hend)
        have hop : s.c.op = .release s.c.hibernate := by
          rw [StressC.op, hend]
        rw [hop] at hcall
        have hp : a.Permits (.release s.c.hibernate) := by
          change a.sched.currentPid ≠ 0
          rw [hcurC]
          decide
        obtain ⟨rfl, r', ho'⟩ := ho.step_same hp hy hcall
        exact ⟨a, r', ho', hrelay.c_skip hend⟩
      · obtain ⟨hp, hr⟩ := hrelay.c_proper ho.ok ho.mailOwned hcurC hend
        obtain ⟨b, r', hn⟩ := ho.step_of_permits hp hr hcall
        exact ⟨b, r', hn.orderly,
          hrelay.c_step ho.ok ho.posted ho.mailOwned hcurC hn.call hn.effect hbase hend⟩

lemma Good.inOrder (h : s.Good priority base) : s.InOrder := by
  obtain ⟨a, r, ho, hrelay⟩ := h
  refine ⟨hrelay.numbered, ?_⟩
  rw [ho.rep.pool.memory, ho.rep.mailTo ho.ok.mailbox_le, ho.rep.mailTo ho.ok.mailbox_le]
  exact hrelay.flow

lemma Good.freesUnused (h : s.Good priority base) (hforgets : s.Forgets) : s.FreesUnused := by
  obtain ⟨a, r, ho, hrelay⟩ := h
  intro x k hcur hop hcall
  rw [ho.rep.currentPid] at hcur
  rw [ho.rep.inMailbox_iff ho.ok]
  by_cases hend : s.c.point = .ending false
  · have hop' : s.c.op = .release s.c.hibernate := by
      rw [StressC.op, hend]
    obtain rfl := Op.release.inj (hop.symm.trans hop')
    obtain ⟨code, hcode, hy⟩ := ho.ok.release_rejected (hforgets.not_owned ho hcur hend)
    have hp : a.Permits (.release s.c.hibernate) := by
      change a.sched.currentPid ≠ 0
      rw [hcur]
      decide
    obtain ⟨hreply, -⟩ := ho.step_same hp hy hcall
    exact absurd (Reply.code.inj hreply).symm hcode
  · have hw := Spec.Kernel.c_worksAt s.c
    rw [hop] at hw
    exact ⟨(hrelay.holdsC.block hend x hw).notMem, hrelay.holdsC.block_notMem hend hw⟩

/-- As long as the block at `hibernate` is none of its own whenever `stress_c` comes to release it in a turn
without a hibernation, it frees nothing that is in a mailbox or in its queue, and takes up every report once and
in order. -/
theorem stress_in_order {xs : List Action} (hprio : ∀ i, priority i ≤ 4) (hbase : base ≠ 0)
    (hboot : boot priority base = some k₀)
    (hrun : Run (fun s x t => Step s x t ∧ (x = .own → s.Forgets)) (start k₀ hibernate) xs s) :
    s.InOrder ∧ (s.Forgets → s.FreesUnused) := by
  have hgood : s.Good priority base :=
    hrun.invariant (I := Good priority base) (.start hprio hboot)
      fun _ _ _ h hx => h.step hbase hx.1 hx.2
  exact ⟨hgood.inOrder, hgood.freesUnused⟩

/-! ### A run in which a report is freed -/

instance (s : Stress) : Decidable s.Forgets :=
  inferInstanceAs (Decidable (s.kernel.currentPid = stressCPid → s.c.point = .ending false →
    ∀ b < memBlockCount, (s.kernel.pool.block b).startBlock = s.c.hibernate →
      (s.kernel.pool.block b).pid ≠ stressCPid))


variable {s t : Stress} {x : Action}

def setTicks (s : Stress) (n : Nat) : Stress := { s with kernel := { s.kernel with ticks := UInt32.ofNat n } }

/-- Until the first delayed message is due, a tick is counted and nothing else happens. -/
lemma run_ticks {pri : UInt32} {n m : Nat} (hm : m < 4294967296) (h : s.kernel.Early (UInt32.ofNat m)) (hn : n ≤ m)
    (hp : s.kernel.sched.getProcessPriority s.kernel.currentPid = some pri) (hle : pri ≤ 4) :
    Run Step (s.setTicks 0) (List.replicate n (.call .timer)) (s.setTicks n) := by
  induction n with
  | zero => exact .nil _
  | succ n ih =>
    rw [List.replicate_succ']
    refine .append (ih (Nat.le_of_succ_le hn)) (.single ?_)
    have hticks : UInt32.ofNat n + 1 = UInt32.ofNat (n + 1) := (UInt32.ofNat_add n 1).symm
    have hcall : (s.setTicks n).kernel.call .timer =
        some (.moved [], { (s.setTicks n).kernel with ticks := UInt32.ofNat n + 1 }) := by
      refine Kernel.call_timer_early (fun i hi e he => UInt32.lt_of_le_of_lt ?_ (h i hi e he)) hp hle
      rw [setTicks, hticks, UInt32.le_iff_toNat_le, UInt32.toNat_ofNat_of_lt' hm,
        UInt32.toNat_ofNat_of_lt' (Nat.lt_of_le_of_lt hn hm)]
      exact hn
    have hfree : (s.setTicks n).kernel.StressFree .timer := ⟨⟨.inl rfl, ⟨fun _ => trivial, trivial⟩, trivial⟩, trivial⟩
    rw [Step, step, if_pos hfree, hcall, hticks]
    rfl

/-- Process 1 is registered with priority 0, the other test processes with priority 4. -/
def onePriority (i : Fin 6) : UInt8 := if i = 0 then 0 else 4

def testBlock (i : Nat) : Nat := 4096 + 128 * i

def own (n : Nat) : List Action := List.replicate n .own

def calls (l : List Op) : List Action := l.map .call

/-- The I/O processes wait, and process 80 gives `stress_a` the priority of `stress_b` and the CRT process a
low one. Process 1 takes all blocks but four, and `stress_b` and `stress_c` wait; `stress_a` registers its command,
and the keyboard decoder sends it the command that starts it. -/
def startUp : List Action :=
  calls (List.replicate 4 .receive) ++ calls [.setPriority 7 2, .setPriority 11 3, .receive] ++
    calls (List.replicate 26 .request) ++ calls [.setPriority 1 2] ++ own 10 ++
    calls [.receive, .release (testBlock 26), .request, .store (msgField (testBlock 27)) 0x25,
      .store (msgField (testBlock 27) + 1) 0x5a, .send stressAPid (testBlock 27), .receive, .releaseProcessor]

/-- Report 0 comes to `stress_c`, which hibernates with block 26. -/
def firstReport : List Action := own 13 ++ calls [.releaseProcessor] ++ own 24

/-- After the hibernation `stress_c` gets a low priority for a while, in which the reports 1 to 3 come into its
mailbox, the last of them in block 26. Then it takes up report 1. -/
def nextReports : List Action :=
  calls [.timer] ++ own 4 ++ calls [.setPriority 9 3, .releaseProcessor] ++ own 12 ++
    calls [.releaseProcessor] ++ own 14 ++ calls [.releaseProcessor] ++ own 14 ++
    calls [.releaseProcessor] ++ own 4 ++ calls [.setPriority 9 1] ++ own 2

/-- A step under the condition of `stress_in_order` -/
def stepIf (s : Stress) (x : Action) : Option Stress := if x = .own → s.Forgets then s.step x else none

lemma of_stepIf (h : s.stepIf x = some t) : Step s x t ∧ (x = .own → s.Forgets) := by
  rw [stepIf] at h
  split_ifs at h with hforgets
  exact ⟨h, hforgets⟩

/-- Up to the first hibernation the condition holds. -/
theorem stress_in_order_firstReport : ∃ k₀ s, boot onePriority 4096 = some k₀ ∧
    Run (fun s x t => Step s x t ∧ (x = .own → s.Forgets)) (start k₀ 0) (startUp ++ firstReport) s ∧
      s.taken = [0] ∧ s.InOrder ∧ (s.Forgets → s.FreesUnused) := by
  have hrun : ((boot onePriority 4096).bind fun k => (startUp ++ firstReport).foldlM stepIf (start k 0)).map
      taken = some [0] := by
    decide +kernel
  obtain ⟨s, hs, htaken⟩ := Option.map_eq_some_iff.mp hrun
  obtain ⟨k₀, hboot, hs⟩ := Option.bind_eq_some_iff.mp hs
  have hsteps : Run (fun s x t => Step s x t ∧ (x = .own → s.Forgets)) (start k₀ 0) (startUp ++ firstReport) s :=
    Run.of_foldlM (fun _ _ _ h => of_stepIf h) hs
  exact ⟨k₀, s, hboot, hsteps, htaken, stress_in_order (by decide) (by decide) hboot hsteps⟩

def runFrom (xs : List Action) (s : Stress) : Option Stress := xs.foldlM step s

lemma run_of_runFrom {xs : List Action} (h : runFrom xs s = some t) : Run Step s xs t :=
  Run.of_foldlM (fun _ _ _ h => h) h

/-- The state in which `stress_c` has begun to hibernate -/
def dozing : Option Stress :=
  (boot onePriority 4096).bind fun k => runFrom (startUp ++ firstReport) (start k 0)

/-- The messages on the way from `stress_a` to `stress_c` -/
def onTheWay (s : Stress) : List Nat :=
  s.c.messages ++ (s.kernel.mailTo stressCPid ++ (s.b.messages ++ s.kernel.mailTo stressBPid))

lemma exists_dozing : ∃ k₀, ∃ s : Stress, boot onePriority 4096 = some k₀ ∧ dozing = some s ∧
    Run Step (start k₀ 0) (startUp ++ firstReport) (s.setTicks 0) ∧ s.kernel.Early 9999 ∧
    s.kernel.sched.getProcessPriority s.kernel.currentPid = some 2 := by
  have hrun : dozing.any (fun s => decide (s.kernel.ticks = 0 ∧ s.kernel.Early 9999 ∧
      s.kernel.sched.getProcessPriority s.kernel.currentPid = some 2)) = true := by
    decide +kernel
  obtain ⟨s, hs, hrun⟩ := (Option.any_eq_true _ _).mp hrun
  obtain ⟨k₀, hboot, hstart⟩ := Option.bind_eq_some_iff.mp hs
  obtain ⟨hticks, hearly, hp⟩ := of_decide_eq_true hrun
  have hzero : s.setTicks 0 = s := by
    change Stress.mk { s.kernel with ticks := 0 } _ _ _ _ _ = s
    rw [← hticks]
  rw [← hzero] at hstart
  exact ⟨k₀, s, hboot, hs, run_of_runFrom hstart, hearly, hp⟩

/-- Without the condition `stress_c` frees report 3, which is in its mailbox, and report 3 is lost. -/
theorem recycled : ∃ k₀ xs s t, boot onePriority 4096 = some k₀ ∧ Run Step (start k₀ 0) xs s ∧
    Step s .own t ∧ ¬ s.FreesUnused ∧ ¬ t.InOrder := by
  obtain ⟨k₀, s₀, hboot, hdozing, hstart, hearly, hp⟩ := exists_dozing
  have hrun : (dozing.bind fun s => runFrom nextReports (s.setTicks 9999)).any (fun s => (s.step .own).any fun t =>
      decide (s.kernel.currentPid = stressCPid ∧ s.c.point = .ending false ∧ s.c.hibernate = testBlock 26 ∧
        s.kernel.InMailbox (testBlock 26) ∧
        (s.kernel.call (.release (testBlock 26))).map Prod.fst = some (.code 0) ∧
        t.sent = [0, 1, 2, 3] ∧ t.taken = [0, 1] ∧ reports t.kernel.pool.memory t.onTheWay = [2])) = true := by
    decide +kernel
  obtain ⟨s, hs, hrun⟩ := (Option.any_eq_true _ _).mp hrun
  obtain ⟨t, ht, hrun⟩ := (Option.any_eq_true _ _).mp hrun
  obtain ⟨hcur, hpoint, hhib, hmail, hcall, hsent, htaken, hway⟩ := of_decide_eq_true hrun
  rw [hdozing, Option.bind_some] at hs
  have hticks : Run Step (s₀.setTicks 0) (List.replicate 9999 (.call .timer)) (s₀.setTicks 9999) :=
    run_ticks (by decide) hearly le_rfl hp (by decide)
  refine ⟨k₀, _, s, t, hboot, (hstart.append hticks).append (run_of_runFrom hs), ht, ?_, ?_⟩
  · intro hfree
    obtain ⟨⟨reply, k⟩, hk, rfl⟩ := Option.map_eq_some_iff.mp hcall
    have hop : s.c.op = .release (testBlock 26) := by
      rw [StressC.op, hpoint, ← hhib]
    exact (hfree (testBlock 26) k hcur hop hk).1 hmail
  · intro horder
    have hflow : t.sent = t.taken ++ reports t.kernel.pool.memory t.onTheWay := horder.2
    rw [hsent, htaken, hway] at hflow
    exact absurd hflow (by decide)

end Stress

end RtxKernel
