import RtxKernel.Interrupt.Linked
import RtxKernel.Interrupt.Split
import RtxKernel.Kernel.Boot
import RtxKernel.Core.Wake

/-!
# The queues under interrupts

In every state each process is linked once, into one queue, or runs, but for the one that an open section moves, and
that section links it again. A process that has blocked itself runs on until it releases the processor, and an
interrupt handler may release it first; both leave the queues as they should be. Two things do harm:

* An interrupt handler unblocks this process: `remove_process` does not unlink the running process, and the process
  is linked into the ready queue with the link field that its blocked queue still needs (`linked_twice`).
* An interrupt handler stores into the queues, or switches processes, inside of a section that it has interrupted,
  as TRAP #1 lets it (`lost_in_section`).
-/

namespace RtxKernel

open Spec (Sched)

/-! ### The invariant -/

/-- The process that makes this call is about to release the processor, having blocked itself. -/
def Stage.isLeaving : Stage → Bool
  | .leave _ => true
  | _ => false

/-- No section on the queues is open, and the process is at `x` in its call. -/
structure Context.IsOut (c : Context) (x : Stage) : Prop where
  base : c.base = .out x
  isrs : ∀ f ∈ c.isrs, ∃ i, f = .out i

/-- What is known of a state when the section that is open is at its end: the queues, the call of the process that
runs then, and the contexts of the others -/
structure Outline where
  sched : Scheduler
  base : Stage
  saved : PcbPtr → Context

/-- Only a process that has blocked itself and is about to leave runs without being ready. The NULL
process, whose pid is 0, makes no calls. -/
structure Outline.Good (o : Outline) (a : Sched) : Prop where
  rep : Rep o.sched a
  wf : a.WF
  free : o.sched.Free
  ready : ∀ r, a.running = some r → a.state r = .ready ∨ o.base.isLeaving = true
  caller : ∀ r, a.running = some r → o.base ≠ .user → a.pid r ≠ 0
  saved : ∀ p, ∃ x, (o.saved p).IsOut x ∧ (x ≠ .user → a.pid p ≠ 0)
  gone : a.running = none → o.base = .ended

namespace Split

/-- The lowest section that is open, and the context without what has interrupted it -/
inductive Opens (m : Split) : {σ : Type} → Pending σ → (Place σ → Context) → Prop
  | base {w : Pending Stage} (hb : m.current.base = .inside w) : Opens m w fun x => ⟨x, []⟩
  | isr {above : List (Place Isr)} {w : Pending Isr} {rest : List (Place Isr)} {c : Stage}
      (hb : m.current.base = .out c) (hi : m.current.isrs = above ++ .inside w :: rest)
      (hrest : ∀ f ∈ rest, ∃ i, f = .out i) : Opens m w fun x => ⟨.out c, x :: rest⟩

/-- What is known at the end of a section that leaves the queues `s` -/
inductive EndsIn {σ : Type} (saved : PcbPtr → Context) (top : Place σ → Context) (s : Scheduler) :
    Ending σ → Outline → Prop
  | leave {test : Test} {yes no : σ} {x : Stage}
      (hx : ∀ null, (top (.out (if s.passes null test then yes else no))).IsOut x) :
      EndsIn saved top s (.leave test yes no) ⟨s, x, saved⟩
  | load {old : Option PcbPtr} {next : σ} {r : PcbPtr} {x : Stage} (hr : s.runningProcess = some r)
      (hx : (save saved old (top (.out next)) r).IsOut x) :
      EndsIn saved top s (.load old next) ⟨s, x, save saved old (top (.out next))⟩

/-- The state when the open section, if one is open, goes on to its end -/
inductive Finishes (m : Split) : Outline → Prop
  | out {x : Stage} (h : m.current.IsOut x) : Finishes m ⟨m.kernel.sched, x, m.saved⟩
  | inside {σ : Type} {w : Pending σ} {top : Place σ → Context} {s : Scheduler} {o : Outline} (hw : m.Opens w top)
      (hs : m.kernel.sched.Orderly w.clear w.pieces s) (he : EndsIn m.saved top s w.ending o) : Finishes m o

variable {m m' : Split} {o : Outline} {a : Sched} {k : Kernel} {s : Scheduler} {x : Stage} {rest : List (Place Isr)}

lemma EndsIn.sched {σ : Type} {saved : PcbPtr → Context} {top : Place σ → Context} {e : Ending σ}
    (h : EndsIn saved top s e o) : o.sched = s := by
  cases h <;> rfl

lemma findSome_pending {l : List (Place Isr)} (h : ∀ f ∈ l, ∃ i, f = .out i) :
    l.reverse.findSome? Place.pending = none := by
  rw [List.findSome?_eq_none_iff]
  intro f hf
  obtain ⟨i, rfl⟩ := h f (List.mem_reverse.mp hf)
  rfl

lemma unfinished_of_isOut (h : m.current.IsOut x) : m.unfinished = (none, []) := by
  rw [Split.unfinished, h.base]
  simp only [findSome_pending h.isrs]

lemma Opens.unfinished {σ : Type} {w : Pending σ} {top : Place σ → Context} (h : m.Opens w top) :
    m.unfinished = (w.clear, w.pieces) := by
  cases h with
  | base hb => rw [Split.unfinished, hb]
  | isr hb hi hrest =>
    rw [Split.unfinished, hb, hi]
    simp [findSome_pending hrest, List.findSome?_cons, Place.pending]

/-- The queues of the outline are those that the open section leaves. -/
lemma Finishes.settled (h : m.Finishes o) : m.settled = some o.sched := by
  cases h with
  | out h =>
    rw [Split.settled, unfinished_of_isOut h]
    rfl
  | inside hw hs he =>
    rw [Split.settled, hw.unfinished, he.sched]
    exact hs.performAll

/-- Before that they are in order, too. -/
lemma Finishes.linked (h : m.Finishes o) (ho : o.Good a) : ∃ l, m.kernel.sched.Linked m.unfinished.2 l := by
  cases h with
  | out h =>
    rw [unfinished_of_isOut h]
    exact ⟨_, ho.rep.linked ho.wf []⟩
  | inside hw hs he =>
    rw [hw.unfinished]
    exact hs.linked

/-! ### What the turns leave of an outline -/

/-- Only the queues, the contexts and the place count. -/
lemma Finishes.congr (h : m.Finishes o) (hsched : m'.kernel.sched = m.kernel.sched) (hcur : m'.current = m.current)
    (hsaved : m'.saved = m.saved) : m'.Finishes o := by
  cases h with
  | out h => exact hsched ▸ hsaved ▸ .out (hcur ▸ h)
  | inside hw hs he =>
    refine .inside ?_ (hsched ▸ hs) (hsaved ▸ he)
    cases hw with
    | base hb => exact .base (hcur ▸ hb)
    | isr hb hi hrest => exact .isr (hcur ▸ hb) (hcur ▸ hi) hrest

/-- A section is open below the innermost interrupt handler. -/
def Below (m : Split) (rest : List (Place Isr)) : Prop :=
  (∃ w, m.current.base = .inside w) ∨ ∃ w, Place.inside w ∈ rest

/-- The handlers above an open section change nothing of the outline, as long as they keep the queues. -/
lemma Finishes.above (h : m.Finishes o) {f : Place Isr} (hi : m.current.isrs = f :: rest) (hbelow : m.Below rest)
    (hk : k.sched = m.kernel.sched) (l : List (Place Isr)) :
    (m.put k ⟨m.current.base, l ++ rest⟩).Finishes o := by
  cases h with
  | out h =>
    rcases hbelow with ⟨w, hw⟩ | ⟨w, hw⟩
    · cases h.base.symm.trans hw
    · obtain ⟨i, hf⟩ := h.isrs (.inside w) (hi ▸ List.mem_cons_of_mem _ hw)
      cases hf
  | inside hw hs he =>
    refine .inside ?_ (hk ▸ hs) he
    cases hw with
    | base hb => exact .base hb
    | @isr above w rest' c hb hi' hrest =>
      cases above with
      | nil =>
        -- then the innermost handler would be the lowest one that is open
        obtain ⟨-, rfl⟩ := List.cons.inj (hi.symm.trans hi')
        rcases hbelow with ⟨w', hw'⟩ | ⟨w', hw'⟩
        · cases hb.symm.trans hw'
        · obtain ⟨i, hf⟩ := hrest _ hw'
          cases hf
      | cons g above =>
        obtain ⟨-, rfl⟩ := List.cons.inj (hi.symm.trans hi')
        refine @Opens.isr _ (l ++ above) w _ c hb ?_ hrest
        simp [put]

lemma Finishes.push (h : m.Finishes o) (hk : k.sched = m.kernel.sched) (i : Isr) :
    (m.handle k (.out i) m.current.isrs).Finishes o := by
  cases h with
  | @out x h =>
    have hout : (m.handle k (.out i) m.current.isrs).Finishes ⟨k.sched, x, m.saved⟩ := by
      refine .out ⟨h.base, ?_⟩
      intro f hf
      rcases List.mem_cons.mp hf with rfl | hf
      · exact ⟨i, rfl⟩
      · exact h.isrs f hf
    exact hk ▸ hout
  | inside hw hs he =>
    refine .inside ?_ (hk ▸ hs) he
    cases hw with
    | base hb => exact .base hb
    | @isr above w rest c hb hi hrest =>
      exact @Opens.isr _ (.out i :: above) w rest c hb (congrArg (_ :: ·) hi) hrest

/-- The open section makes its next store, or ends. -/
lemma EndsIn.advance {σ : Type} {w : Pending σ} {top : Place σ → Context}
    (hs : m.kernel.sched.Orderly w.clear w.pieces s) (he : EndsIn m.saved top s w.ending o)
    (hopens : ∀ k w', (m.put k (top (.inside w'))).Opens w' top) (hadv : m.advance w top = some m') :
    m'.Finishes o := by
  obtain ⟨clear, pieces, ending⟩ := w
  rw [Split.advance] at hadv
  generalize hsched : m.kernel.sched = s₀ at hs hadv
  cases hs with
  | clear _ ht =>
    obtain rfl := Option.some.inj hadv
    exact .inside (hopens _ _) ht he
  | store _ hx ht =>
    obtain ⟨y, hy, hadv⟩ := Option.bind_eq_some_iff.mp hadv
    obtain rfl := Option.some.inj (hx.symm.trans hy)
    obtain rfl := Option.some.inj hadv
    exact .inside (hopens _ _) ht he
  | done =>
    cases he with
    | leave hx =>
      obtain rfl := Option.some.inj hadv
      subst hsched
      exact .out (hx _)
    | @load old next r x hr hx =>
      obtain ⟨r', hr', hadv⟩ := Option.bind_eq_some_iff.mp hadv
      obtain rfl := Option.some.inj (hr.symm.trans hr')
      obtain rfl := Option.some.inj hadv
      subst hsched
      exact .out hx

end Split

/-! ### Sections from a state in which none is open -/

namespace Outline.Good

variable {o : Outline} {a b : Sched} {r : PcbPtr} {k : Kernel} {s : Scheduler} {x : Stage} {c : Context} {w : Plan}

lemma exists_running (h : o.Good a) (hc : o.base ≠ .ended) : ∃ r, a.running = some r := by
  cases hr : a.running with
  | none => exact absurd (h.gone hr) hc
  | some r => exact ⟨r, rfl⟩

lemma steady (h : o.Good a) (hr : a.running = some r) (hc : o.base.isLeaving = false) : a.Steady r := by
  refine ⟨h.wf, hr, (h.ready r hr).resolve_right ?_⟩
  simp [hc]

lemma start (hk : Rep k.sched a) (h : a.Steady r) (hfree : k.sched.Free) :
    Outline.Good ⟨k.sched, .user, (Split.start k).saved⟩ a where
  rep := hk
  wf := h.wf
  free := hfree
  ready x hx := .inl (h.ready_of_running hx)
  caller _ _ hc := absurd rfl hc
  saved _ := ⟨.user, ⟨rfl, fun f hf => by cases hf⟩, fun hc => absurd rfl hc⟩
  gone hn := by
    rw [h.running] at hn
    cases hn

/-- The interrupt handlers do not change what the process has to do. -/
lemma stays (h : o.Good a) (hs : Rep s b) (hb : b.WF) (hst : a.Stays b) (hfree : s.Free) :
    Outline.Good ⟨s, o.base, o.saved⟩ b where
  rep := hs
  wf := hb
  free := hfree
  ready := by
    intro r hr
    rw [hst.running] at hr
    exact (h.ready r hr).imp_left (hst.ready r hr)
  caller := by
    rw [hst.running, hst.pid]
    exact h.caller
  saved := by
    rw [hst.pid]
    exact h.saved
  gone := by
    rw [hst.running]
    exact h.gone

/-- The process goes on with its call. -/
lemma proceed (h : o.Good a) (hs : Rep s b) (hb : b.WF) (hpid : b.pid = a.pid) (hr : b.running = some r)
    (hfree : s.Free) (hz : b.pid r ≠ 0) (hx : b.state r = .ready ∨ x.isLeaving = true) :
    Outline.Good ⟨s, x, o.saved⟩ b where
  rep := hs
  wf := hb
  free := hfree
  ready := by
    intro y hy
    obtain rfl := Option.some.inj (hr.symm.trans hy)
    exact hx
  caller := by
    intro y hy _
    obtain rfl := Option.some.inj (hr.symm.trans hy)
    exact hz
  saved := by
    rw [hpid]
    exact h.saved
  gone := by
    intro hn
    rw [hr] at hn
    cases hn

/-- The processor can be released at any point. -/
lemma switch (h : o.Good a) (hc : c.IsOut x) (hz : x ≠ .user → ∀ r, a.running = some r → a.pid r ≠ 0) :
    ∃ s r y b, o.sched.Orderly none o.sched.switchPieces s ∧ s.runningProcess = some r ∧
      (Split.save o.saved o.sched.runningProcess c r).IsOut y ∧
      Outline.Good ⟨s, y, Split.save o.saved o.sched.runningProcess c⟩ b := by
  obtain ⟨s, horder, hrep, hfree⟩ := h.rep.orderly_switch h.wf h.free
  obtain ⟨r, hr⟩ := h.wf.procSwitch
  have hpid : a.procSwitch.pid = a.pid := (Sched.Wakes.procSwitch a).pid
  have hsaved : ∀ p, ∃ y, (Split.save o.saved o.sched.runningProcess c p).IsOut y ∧ (y ≠ .user → a.pid p ≠ 0) := by
    rw [h.rep.running]
    intro p
    cases hrun : a.running with
    | none => exact h.saved p
    | some r =>
      by_cases hpr : p = r
      · subst hpr
        refine ⟨x, ?_, fun hx => hz hx p hrun⟩
        rw [Split.save, Function.update_self]
        exact hc
      · rw [Split.save, Function.update_of_ne hpr]
        exact h.saved p
  obtain ⟨y, hy, hyz⟩ := hsaved r
  refine ⟨s, r, y, a.procSwitch, horder, hrep.running.trans hr.running, hy, hrep, hr.wf, hfree, ?_, ?_, ?_, ?_⟩
  · intro z hzr
    obtain rfl := Option.some.inj (hr.running.symm.trans hzr)
    exact .inl hr.ready
  · intro z hzr hyu
    obtain rfl := Option.some.inj (hr.running.symm.trans hzr)
    rw [hpid]
    exact hyz hyu
  · rw [hpid]
    exact hsaved
  · intro hn
    rw [hr.running] at hn
    cases hn

end Outline.Good

namespace Split

variable {m m' : Split} {o : Outline} {a b : Sched} {r : PcbPtr} {k : Kernel} {s : Scheduler} {c x : Stage}
  {rest : List (Place Isr)} {w : Plan}

/-- The invariant: the section that is open, if one is, leaves the queues and the contexts in order. -/
def Good (m : Split) : Prop := ∃ o a, m.Finishes o ∧ o.Good a

lemma good_out (h : Outline.Good ⟨k.sched, c, m.saved⟩ a) : (m.stay k (.out c)).Good :=
  ⟨_, a, .out ⟨rfl, fun f hf => by cases hf⟩, h⟩

section Begin

variable {σ : Type} (top : Place σ → Context) {next yes no : σ}

/-- A section begins with its look-ups. -/
lemma good_begin (hopens : ∀ w', (m.put k (top (.inside w'))).Opens w' top)
    (hs : k.sched.Orderly none w.pieces s)
    (hx : ∀ null, (top (.out (if s.passes null w.test then yes else no))).IsOut x)
    (h : Outline.Good ⟨s, x, m.saved⟩ b) : (m.put k (top (w.begin yes no))).Good :=
  ⟨_, b, .inside (hopens _) hs (.leave hx), h⟩

lemma good_switching (hopens : ∀ w', (m.put k (top (.inside w'))).Opens w' top) (hk : k.sched = m.kernel.sched)
    (hx : (top (.out next)).IsOut x) (h : Outline.Good ⟨m.kernel.sched, c, m.saved⟩ a)
    (hz : x ≠ .user → ∀ r, a.running = some r → a.pid r ≠ 0) : (m.put k (top (m.switching next))).Good := by
  obtain ⟨s, r, y, b, hs, hr, hy, hb⟩ := h.switch hx hz
  have hs : k.sched.Orderly none m.kernel.sched.switchPieces s := by
    rw [hk]
    exact hs
  exact ⟨_, b, .inside (hopens _) hs (.load hr hy), hb⟩

end Begin

/-- A blocked running process that is not to be met. -/
lemma spares {t : Turn} (h : Rep m.kernel.sched a) (hs : m.Spares t) {pid : UInt32} (hpid : pid ∈ m.unblocks t) :
    ∀ r, a.running = some r → a.pid r = pid → (a.state r).isBlocked = false := by
  intro r hr hrp
  rw [← h.state]
  apply hs pid hpid r
  · rw [h.running, hr]
    rfl
  · rw [h.pid, hrp]

/-! ### The turns of the running process -/

section Running

variable (h : Outline.Good ⟨m.kernel.sched, c, m.saved⟩ a) (hr : a.running = some r)

include h hr

lemma currentPid_eq : m.kernel.currentPid = a.pid r := by
  rw [Kernel.currentPid, Scheduler.getCurrentPid, h.rep.running, hr]
  exact h.rep.pid r

/-- The process goes on with its call, and the queues stay. -/
lemma goesOn (hz : a.pid r ≠ 0) (hready : a.state r = .ready) (hk : k.sched = m.kernel.sched) (x : Stage) :
    (m.stay k (.out x)).Good := by
  apply good_out (a := a)
  rw [hk]
  exact h.proceed h.rep h.wf rfl hr h.free hz (.inl hready)

/-- A section of the running process that ends with the queues `s` -/
lemma begins {yes no : Stage} (hs : m.kernel.sched.Orderly none w.pieces s) (hb : Rep s b) (hw : b.WF)
    (hst : b.pid = a.pid ∧ b.running = a.running) (hfree : s.Free) (hz : a.pid r ≠ 0)
    (hx : b.state r = .ready ∨ ∀ q, s.outcome w.test = some q → (if q then yes else no).isLeaving = true) :
    (m.stay m.kernel (w.begin yes no)).Good := by
  obtain ⟨q, hq⟩ := s.exists_outcome (hb.running.trans (hst.2.trans hr)) w.test
  refine good_begin (fun y => ⟨y, []⟩) (fun w' => .base rfl) hs (x := if q then yes else no) ?_ ?_ (b := b)
  · intro null
    rw [Scheduler.passes_of_outcome hq]
    exact ⟨rfl, fun f hf => by cases hf⟩
  · refine h.proceed hb hw hst.1 (hst.2.trans hr) hfree ?_ (hx.imp_right fun hx => hx q hq)
    rw [hst.1]
    exact hz

lemma switches (next : Stage) (hz : next ≠ .user → a.pid r ≠ 0) : (m.stay m.kernel (m.switching next)).Good := by
  refine good_switching (fun x => ⟨x, []⟩) (fun w' => .base rfl) rfl (x := next) ⟨rfl, fun f hf => by cases hf⟩ h ?_
  intro hnext r' hr'
  obtain rfl := Option.some.inj (hr.symm.trans hr')
  exact hz hnext

lemma tests (hz : a.pid r ≠ 0) (hready : a.state r = .ready) : m.test.Good :=
  goesOn h hr hz hready rfl _

/-- The first critical section of a call -/
lemma enters (hz : a.pid r ≠ 0) (hready : a.state r = .ready) {op : Op} (hs : m.enter op = some m') : m'.Good := by
  have hsteady : a.Steady r := ⟨h.wf, hr, hready⟩
  cases op with
  | releaseProcessor =>
    obtain rfl := Option.some.inj hs
    exact switches h hr .user fun hc => absurd rfl hc
  | setPriority pid v =>
    obtain ⟨w, hw, hs⟩ := Option.bind_eq_some_iff.mp hs
    obtain rfl := Option.some.inj hs
    obtain ⟨s, b, horder, hrep, hwf, hstay, hfree⟩ := h.rep.orderly_prioritize hsteady h.free hz hw
    exact begins h hr horder hrep hwf ⟨hstay.pid, hstay.running⟩ hfree hz (.inl (hstay.ready r hr hready))
  | send pid e =>
    obtain ⟨⟨code, sent, k⟩, hx, hs⟩ := Option.bind_eq_some_iff.mp hs
    obtain rfl := Option.some.inj hs
    exact goesOn h hr hz hready (Kernel.sched_sendSection hx) _
  | delayedSend pid e delay =>
    obtain ⟨⟨code, k⟩, hx, hs⟩ := Option.bind_eq_some_iff.mp hs
    obtain rfl := Option.some.inj hs
    exact goesOn h hr hz hready (Kernel.sched_delayedSend hx) _
  | receive =>
    rw [Split.enter] at hs
    have hsched := m.kernel.sched_receiveScan
    generalize m.kernel.receiveScan = x at hs hsched
    obtain ⟨e | e, k⟩ := x
    · obtain rfl := Option.some.inj hs
      exact goesOn h hr hz hready hsched _
    · obtain rfl := Option.some.inj hs
      exact goesOn h hr hz hready hsched _
  | request =>
    obtain rfl := Option.some.inj hs
    exact tests h hr hz hready
  | release x =>
    obtain ⟨⟨code, pool⟩, -, hs⟩ := Option.bind_eq_some_iff.mp hs
    obtain rfl := Option.some.inj hs
    apply goesOn h hr hz hready
    rfl
  | store x v =>
    obtain rfl := Option.some.inj hs
    apply goesOn h hr hz hready
    rfl
  | terminate =>
    obtain ⟨x, hx, hs⟩ := Option.bind_eq_some_iff.mp hs
    obtain ⟨s, hrem, hs⟩ := Option.bind_eq_some_iff.mp hs
    obtain rfl := Option.some.inj hs
    -- the process that ends still runs
    rw [Scheduler.removeProcess, if_pos hx] at hrem
    apply goesOn h hr hz hready
    exact (Option.some.inj hrem).symm
  | block | unblockByPid | unblockByType | timer | uart => cases hs

end Running

/-- The running process goes on with its call, outside of the sections on the queues. -/
lemma proceeds (h : Outline.Good ⟨m.kernel.sched, c, m.saved⟩ a) (hbase : m.current.base = .out c)
    (hi : m.current.isrs = []) (hspare : m.Spares .go) (hs : m.proceed c = some m') : m'.Good := by
  by_cases hend : c = .ended
  · subst hend
    obtain rfl := Option.some.inj hs
    refine good_switching (fun x => ⟨x, []⟩) (fun w' => .base rfl) rfl (x := .ended) ⟨rfl, fun f hf => by cases hf⟩ h ?_
    exact fun _ r hr => h.caller r hr (by simp)
  obtain ⟨r, hr⟩ := h.exists_running hend
  have hsteady := fun hc => h.steady hr hc
  have hcaller := h.caller r hr
  cases c with
  | user => cases hs
  | enter op => exact enters h hr (hcaller (by simp)) (hsteady rfl).ready hs
  | block t =>
    obtain ⟨w, hw, hs⟩ := Option.bind_eq_some_iff.mp hs
    obtain rfl := Option.some.inj hs
    have hz := hcaller (by simp)
    have hst := hsteady rfl
    rw [currentPid_eq h hr] at hw
    obtain ⟨htest, s, b, horder, hrep, hwf, hpid, hrun, hfree⟩ := h.rep.orderly_block hst h.free hz hw
    refine begins h hr horder hrep hwf ⟨hpid, hrun⟩ hfree hz (.inr ?_)
    intro q hq
    -- the process that blocks itself runs, so the processor is released
    rw [htest, Scheduler.outcome, hrep.running, hrun, hr] at hq
    obtain rfl := Option.some.inj hq
    simp [Stage.isLeaving]
  | leave t =>
    obtain rfl := Option.some.inj hs
    exact switches h hr _ fun _ => hcaller (by simp)
  | test =>
    obtain rfl := Option.some.inj hs
    exact tests h hr (hcaller (by simp)) (hsteady rfl).ready
  | take =>
    obtain ⟨⟨x, pool⟩, -, hs⟩ := Option.bind_eq_some_iff.mp hs
    obtain rfl := Option.some.inj hs
    apply goesOn h hr (hcaller (by simp)) (hsteady rfl).ready
    rfl
  | unblock pid =>
    obtain ⟨w, hw, hs⟩ := Option.bind_eq_some_iff.mp hs
    obtain rfl := Option.some.inj hs
    have hpid : pid ∈ m.unblocks .go := by simp [unblocks, hi, hbase]
    obtain ⟨s, b, horder, hrep, hwf, hstay, hfree⟩ :=
      h.rep.orderly_unblockByPid h.wf h.free hw (spares h.rep hspare hpid)
    exact begins h hr horder hrep hwf ⟨hstay.pid, hstay.running⟩ hfree (hcaller (by simp))
      (.inl (hstay.ready r hr (hsteady rfl).ready))
  | unblockMem =>
    obtain rfl := Option.some.inj hs
    have hst := hsteady rfl
    obtain ⟨s, b, horder, hrep, hwf, hstay, hfree⟩ := h.rep.orderly_unblockByType hst h.free .mem
    exact begins h hr horder hrep hwf ⟨hstay.pid, hstay.running⟩ hfree (hcaller (by simp))
      (.inl (hstay.ready r hr hst.ready))
  | release =>
    obtain rfl := Option.some.inj hs
    exact switches h hr _ fun hc => absurd rfl hc
  | clear =>
    have hst := hsteady rfl
    have hz := hcaller (by simp)
    obtain ⟨x, hx, hs⟩ := Option.bind_eq_some_iff.mp hs
    obtain rfl := Option.some.inj hs
    obtain rfl := Option.some.inj (hx.symm.trans (h.rep.running.trans hr))
    have hb : a.endProcess x = { a with running := none, live := a.live.erase x } := by
      rw [Sched.endProcess, Sched.remove, if_pos hr]
      rfl
    refine good_out (a := a.endProcess x) ⟨?_, hst.endProcess hz, ?_, ?_, ?_, ?_, ?_⟩
    · rw [hb]
      exact ⟨h.rep.pid, h.rep.state, h.rep.priority, h.rep.count, rfl, h.rep.main,
        congrArg (·.erase x) h.rep.live, h.rep.chain⟩
    · intro y hy
      cases hy
    · rw [hb]
      intro y hy
      cases hy
    · rw [hb]
      intro y hy
      cases hy
    · rw [hb]
      exact h.saved
    · exact fun _ => rfl
  | ended => exact absurd rfl hend

/-! ### The turns of the interrupt handlers -/

/-- What the innermost handler puts into its place -/
inductive Serves (m : Split) : List (Place Isr) → Prop
  | ret : Serves m []
  | out (i : Isr) : Serves m [.out i]
  | unblock {pid : UInt32} {w : Plan} {yes no : Isr} (hpid : pid ∈ m.unblocks .go)
      (hw : m.kernel.sched.unblockByPidPlan pid = some w) : Serves m [w.begin yes no]
  | release : Serves m [m.switching .ret]

/-- A handler stores nothing into the queues outside of its sections. -/
lemma serve_cases {i : Isr} (hi : m.current.isrs = .out i :: rest) (hs : m.serve rest i = some m') :
    ∃ k l, k.sched = m.kernel.sched ∧ m' = m.put k ⟨m.current.base, l ++ rest⟩ ∧ m.Serves l := by
  cases i with
  | sweep i highest =>
    rw [Split.serve] at hs
    split_ifs at hs with hend
    · obtain ⟨priority, -, hs⟩ := Option.bind_eq_some_iff.mp hs
      exact ⟨_, [_], rfl, (Option.some.inj hs).symm, .out _⟩
    · cases hd : m.kernel.delayedMailbox i with
      | none =>
        rw [hd] at hs
        exact ⟨_, [_], rfl, (Option.some.inj hs).symm, .out _⟩
      | some e =>
        rw [hd] at hs
        dsimp only at hs
        split_ifs at hs with hdue
        · exact ⟨_, [_], m.kernel.sched_moveDue i, (Option.some.inj hs).symm, .out _⟩
        · exact ⟨_, [_], rfl, (Option.some.inj hs).symm, .out _⟩
  | wake j next highest =>
    obtain ⟨e, -, hs⟩ := Option.bind_eq_some_iff.mp hs
    obtain ⟨blocked, -, hs⟩ := Option.bind_eq_some_iff.mp hs
    exact ⟨_, [_], rfl, (Option.some.inj hs).symm, .out _⟩
  | unblockRx j next highest =>
    obtain ⟨e, he, hs⟩ := Option.bind_eq_some_iff.mp hs
    obtain ⟨w, hw, hs⟩ := Option.bind_eq_some_iff.mp hs
    have hpid : m.kernel.rx e ∈ m.unblocks .go := by simp [unblocks, hi, he]
    exact ⟨_, [_], rfl, (Option.some.inj hs).symm, .unblock hpid hw⟩
  | rank j next highest =>
    obtain ⟨e, -, hs⟩ := Option.bind_eq_some_iff.mp hs
    obtain ⟨priority, -, hs⟩ := Option.bind_eq_some_iff.mp hs
    exact ⟨_, [_], rfl, (Option.some.inj hs).symm, .out _⟩
  | best j next =>
    obtain ⟨e, -, hs⟩ := Option.bind_eq_some_iff.mp hs
    obtain ⟨priority, -, hs⟩ := Option.bind_eq_some_iff.mp hs
    exact ⟨_, [_], rfl, (Option.some.inj hs).symm, .out _⟩
  | uart c => exact ⟨_, [_], rfl, (Option.some.inj hs).symm, .out _⟩
  | deliver c =>
    rw [Split.serve] at hs
    split_ifs at hs with hav
    · obtain ⟨⟨x, pool⟩, -, hs⟩ := Option.bind_eq_some_iff.mp hs
      obtain ⟨⟨code, sent, k⟩, hx, hs⟩ := Option.bind_eq_some_iff.mp hs
      exact ⟨k, [_], Kernel.sched_sendSection hx, (Option.some.inj hs).symm, .out _⟩
    · exact ⟨_, [_], rfl, (Option.some.inj hs).symm, .out _⟩
  | unblock pid =>
    obtain ⟨w, hw, hs⟩ := Option.bind_eq_some_iff.mp hs
    have hpid : pid ∈ m.unblocks .go := by simp [unblocks, hi]
    exact ⟨_, [_], rfl, (Option.some.inj hs).symm, .unblock hpid hw⟩
  | release => exact ⟨_, [_], rfl, (Option.some.inj hs).symm, .release⟩
  | ret => exact ⟨_, [], rfl, (Option.some.inj hs).symm, .ret⟩

/-- The place of the innermost handler, when no section is open below it -/
lemma opens_isr (hb : m.current.base = .out x) (hrest : ∀ f ∈ rest, ∃ i, f = .out i) (w : Pending Isr) :
    (m.put k ⟨m.current.base, .inside w :: rest⟩).Opens w fun y => ⟨m.current.base, y :: rest⟩ := by
  rw [hb]
  exact @Opens.isr _ [] w rest x rfl rfl hrest

/-- A section that is open is below a handler that is in none. -/
lemma Opens.below {σ : Type} {w : Pending σ} {top : Place σ → Context} (h : m.Opens w top) {i : Isr}
    (hi : m.current.isrs = .out i :: rest) : m.Below rest := by
  cases h with
  | base hb => exact .inl ⟨_, hb⟩
  | @isr above w _ _ _ hi' =>
    cases above with
    | nil =>
      obtain ⟨hf, -⟩ := List.cons.inj (hi.symm.trans hi')
      cases hf
    | cons f above =>
      obtain ⟨-, rfl⟩ := List.cons.inj (hi.symm.trans hi')
      exact .inr ⟨w, by simp⟩

/-- The innermost interrupt handler goes on, outside of the sections on the queues. -/
lemma serves (h : m.Good) {i : Isr} (hi : m.current.isrs = .out i :: rest) (hspare : m.Spares .go)
    (hs : m.serve rest i = some m') : m'.Good := by
  obtain ⟨o, a, hfin, hgood⟩ := h
  obtain ⟨k, l, hk, rfl, hl⟩ := serve_cases hi hs
  cases hfin with
  | inside hw hs he => exact ⟨o, a, Finishes.above (.inside hw hs he) hi (hw.below hi) hk l, hgood⟩
  | @out x hx =>
    have hrest : ∀ f ∈ rest, ∃ i, f = .out i := fun f hf => hx.isrs f (hi ▸ List.mem_cons_of_mem _ hf)
    have hgood' : Outline.Good ⟨k.sched, x, m.saved⟩ a := hk ▸ hgood
    have hout : ∀ i, Context.IsOut ⟨m.current.base, .out i :: rest⟩ x := by
      refine fun i => ⟨hx.base, ?_⟩
      intro f hf
      rcases List.mem_cons.mp hf with rfl | hf
      · exact ⟨i, rfl⟩
      · exact hrest f hf
    cases hl with
    | ret => exact ⟨_, a, .out ⟨hx.base, hrest⟩, hgood'⟩
    | out i => exact ⟨_, a, .out (hout i), hgood'⟩
    | @unblock pid w yes no hpid hw =>
      obtain ⟨s, b, horder, hrep, hwf, hstay, hfree⟩ :=
        hgood.rep.orderly_unblockByPid hgood.wf hgood.free hw (spares hgood.rep hspare hpid)
      have horder : k.sched.Orderly none w.pieces s := by
        rw [hk]
        exact horder
      exact good_begin (fun y => ⟨m.current.base, y :: rest⟩) (opens_isr hx.base hrest) horder (fun null => hout _)
        (hgood.stays hrep hwf hstay hfree)
    | release =>
      exact good_switching (fun y => ⟨m.current.base, y :: rest⟩) (opens_isr hx.base hrest) hk (hout .ret) hgood
        fun hxu r hr => hgood.caller r hr hxu

/-- Above an open section a handler changes nothing. -/
lemma changes_eq_false {w : Pending Isr} (hi : m.current.isrs = .inside w :: rest) (hkeeps : m.keeps .go = true)
    (hbelow : m.Below rest) : w.changes = false := by
  rw [keeps, hi] at hkeeps
  have hopen : (m.current.base.isOpen || rest.any Place.isOpen) = true := by
    rcases hbelow with ⟨w', hb⟩ | ⟨w', hmem⟩
    · simp [hb, Place.isOpen]
    · rw [Bool.or_eq_true]
      exact .inr (List.any_eq_true.mpr ⟨_, hmem, rfl⟩)
  simpa [hopen] using hkeeps

lemma advance_of_changes {σ : Type} {w : Pending σ} {top : Place σ → Context} (hw : w.changes = false)
    (hs : m.advance w top = some m') : ∃ y, m' = m.put m.kernel (top (.out y)) := by
  obtain ⟨clear, pieces, ending⟩ := w
  cases clear with
  | some p => cases hw
  | none =>
    cases pieces with
    | cons y l => cases hw
    | nil =>
      cases ending with
      | leave test yes no => exact ⟨_, (Option.some.inj hs).symm⟩
      | load old next => cases hw

/-- The innermost interrupt handler goes on, inside of a section on the queues. -/
lemma handlers_advance (h : m.Good) {w : Pending Isr} (hi : m.current.isrs = .inside w :: rest)
    (hkeeps : m.keeps .go = true) (hs : m.advance w (fun x => ⟨m.current.base, x :: rest⟩) = some m') : m'.Good := by
  obtain ⟨o, a, hfin, hgood⟩ := h
  by_cases hbelow : m.Below rest
  · obtain ⟨y, rfl⟩ := advance_of_changes (changes_eq_false hi hkeeps hbelow) hs
    exact ⟨o, a, hfin.above hi hbelow rfl [.out y], hgood⟩
  · cases hfin with
    | out hx =>
      obtain ⟨i, hf⟩ := hx.isrs (.inside w) (hi ▸ List.mem_cons_self ..)
      cases hf
    | inside hw hrest he =>
      cases hw with
      | base hb => exact absurd (.inl ⟨_, hb⟩) hbelow
      | @isr above w' rest' c hb hi' hout =>
        cases above with
        | cons f above =>
          obtain ⟨-, rfl⟩ := List.cons.inj (hi.symm.trans hi')
          exact absurd (.inr ⟨w', by simp⟩) hbelow
        | nil =>
          obtain ⟨hf, rfl⟩ := List.cons.inj (hi.symm.trans hi')
          obtain rfl := Place.inside.inj hf
          rw [hb] at hs
          exact ⟨o, a, he.advance hrest (fun k w' => @Opens.isr _ [] w' rest c rfl rfl hout) hs, hgood⟩

/-! ### The run -/

theorem Good.step (h : m.Good) {t : Turn} (hs : StepIf Harmless m t m') : m'.Good := by
  obtain ⟨⟨hspare, hkeeps⟩, hs⟩ := hs
  cases t with
  | call op =>
    rw [Split.step] at hs
    split_ifs at hs with hc
    obtain ⟨hcur, hz⟩ := hc
    obtain rfl := Option.some.inj hs
    obtain ⟨o, a, hfin, hgood⟩ := h
    cases hfin with
    | inside hw =>
      cases hw with
      | base hb =>
        rw [hcur] at hb
        cases hb
      | isr _ hi =>
        rw [hcur] at hi
        simp at hi
    | out hx =>
      have hbase := hx.base
      rw [hcur] at hbase
      obtain rfl := Place.out.inj hbase
      obtain ⟨r, hr⟩ := hgood.exists_running (by simp)
      rw [currentPid_eq hgood hr] at hz
      exact goesOn hgood hr hz (hgood.steady hr rfl).ready rfl _
  | go =>
    rw [Split.step] at hs
    cases hi : m.current.isrs with
    | cons f rest =>
      rw [hi] at hs
      cases f with
      | out i => exact serves h hi hspare hs
      | inside w => exact handlers_advance h hi hkeeps hs
    | nil =>
      rw [hi] at hs
      obtain ⟨o, a, hfin, hgood⟩ := h
      cases hfin with
      | out hx =>
        rw [hx.base] at hs
        exact proceeds hgood hx.base hi hspare hs
      | inside hw hrest he =>
        cases hw with
        | base hb =>
          rw [hb] at hs
          exact ⟨o, a, he.advance hrest (fun k w' => .base rfl) hs, hgood⟩
        | isr _ hi' =>
          rw [hi] at hi'
          simp at hi'
  | timer =>
    obtain rfl := Option.some.inj hs
    obtain ⟨o, a, hfin, hgood⟩ := h
    exact ⟨o, a, hfin.push (k := { m.kernel with ticks := m.kernel.ticks + 1 }) rfl _, hgood⟩
  | uart c =>
    obtain rfl := Option.some.inj hs
    obtain ⟨o, a, hfin, hgood⟩ := h
    exact ⟨o, a, hfin.push rfl _, hgood⟩
  | race k =>
    obtain rfl := Option.some.inj hs
    obtain ⟨o, a, hfin, hgood⟩ := h
    exact ⟨o, a, hfin.congr rfl rfl rfl, hgood⟩

variable {priority : Fin 6 → UInt8} {base : Nat} {k₀ : Kernel} {ts : List Turn}

/-- The process that runs after start-up was taken out of the ready queue. -/
lemma free_of_boot (hboot : boot priority base = some k₀) (h : Rep k₀.sched a) (hs : a.Steady r) : k₀.sched.Free := by
  obtain ⟨s₁, -, hboot⟩ := Option.bind_eq_some_iff.mp hboot
  obtain ⟨s₂, hswitch, hboot⟩ := Option.bind_eq_some_iff.mp hboot
  obtain rfl := Option.some.inj hboot
  obtain ⟨s, -, hs₂⟩ := Option.bind_eq_some_iff.mp hswitch
  obtain rfl := Option.some.inj hs₂
  rw [h.free_iff]
  intro x hx _
  apply Scheduler.next_dispatch (h.running.trans hx)
  rintro rfl
  rw [h.main] at hx
  exact hs.wf.main_notMem (hs.wf.running_live _ hx)

/-- As long as `unblock_process_by_pid` is not called for the running process while that is blocked, and no interrupt
handler stores into the queues or switches processes inside of a section on the queues that it has interrupted, every
process is linked once, or runs, but for the one that an open section moves; and that section links it again. -/
theorem linked_of_harmless (hprio : ∀ i, priority i ≤ 4) (hboot : boot priority base = some k₀)
    (h : Run (StepIf Harmless) (start k₀) ts m) :
    (∃ l, m.kernel.sched.Linked m.unfinished.2 l) ∧ ∃ s l, m.settled = some s ∧ s.Linked [] l := by
  have hinv : m.Good := by
    apply h.invariant (I := Good)
    · obtain ⟨k, a, r, hk, hrep, hok, -⟩ := boot_ok hprio base
      obtain rfl := Option.some.inj (hk.symm.trans hboot)
      exact ⟨_, a.sched, .out ⟨rfl, fun f hf => by cases hf⟩,
        .start hrep.sched hok.sched (free_of_boot hboot hrep.sched hok.sched)⟩
    · intro m t m' h hs
      exact h.step hs
  obtain ⟨o, a, hfin, hgood⟩ := hinv
  exact ⟨hfin.linked hgood, o.sched, a.queue, hfin.settled, hgood.rep.linked hgood.wf []⟩

/-- A key is pressed while the display process is about to leave, and wakes the keyboard decoder. -/
theorem linked_of_harmless_decoder :
    ∃ k₀ m, boot (fun _ => 2) 4096 = some k₀ ∧
      Run (StepIf Harmless) (start k₀) (.call .receive :: List.replicate 13 .go ++ .call .receive ::
        List.replicate 7 .go ++ .uart 65 :: List.replicate 16 .go) m ∧
      m.kernel.currentPid = 12 ∧ (∃ l, m.kernel.sched.Linked m.unfinished.2 l) ∧
        ∃ s l, m.settled = some s ∧ s.Linked [] l := by
  obtain ⟨k₀, m, hboot, hrun, hpid⟩ := exists_run_of_boot Harmless (fun _ => 2) 4096
    (.call .receive :: List.replicate 13 .go ++ .call .receive :: List.replicate 7 .go ++ .uart 65 ::
      List.replicate 16 .go) (fun m => m.kernel.currentPid = 12) (by decide +kernel)
  exact ⟨k₀, m, hboot, hrun, of_decide_eq_true hpid, linked_of_harmless (fun _ => by decide) hboot hrun⟩

/-- A key is pressed after the keyboard decoder has blocked itself and before it releases the processor: it
is linked into the ready queue and is still at the head of its blocked queue. -/
theorem linked_twice :
    ∃ k₀ m, boot (fun _ => 2) 4096 = some k₀ ∧
      Run (StepIf fun _ _ => True) (start k₀)
        (.call .receive :: List.replicate 7 .go ++ .uart 65 :: List.replicate 9 .go) m ∧
      m.current = ⟨.out (.leave .msg), []⟩ ∧ ¬ ∃ l, m.kernel.sched.Linked [] l := by
  obtain ⟨k₀, m, hboot, hrun, hc⟩ := exists_run_of_boot (fun _ _ => True) (fun _ => 2) 4096
    (.call .receive :: List.replicate 7 .go ++ .uart 65 :: List.replicate 9 .go)
    (fun m => m.current = ⟨.out (.leave .msg), []⟩ ∧
      Chain m.kernel.sched.next (m.kernel.sched.queue .ready 0) [5, 6, 7, 8, 4] ∧
      Chain m.kernel.sched.next (m.kernel.sched.queue .msgBlocked 0) [4]) (by decide +kernel)
  obtain ⟨hcur, hready, hblocked⟩ := of_decide_eq_true hc
  refine ⟨k₀, m, hboot, hrun, hcur, ?_⟩
  rintro ⟨l, h⟩
  have hl : 4 ∈ l .ready 0 := by
    rw [(h.chain .ready 0).unique hready]
    simp
  have hl' : 4 ∈ l .msgBlocked 0 := by
    rw [(h.chain .msgBlocked 0).unique hblocked]
    simp
  exact absurd (h.disjoint hl hl').1 (by decide)

/-- An interrupt handler that switches processes inside of a section does harm, too: a key is pressed when process 9
has stored the blocked state into its PCB, and the handler releases the processor for the keyboard decoder. Process 9
has dropped out of all queues. -/
theorem lost_in_section :
    ∃ k₀ m, boot (fun _ => 2) 4096 = some k₀ ∧
      Run (StepIf Spares) (start k₀)
        (([11, 12, 60, 80].flatMap fun pid => .call (.setPriority pid 3) :: List.replicate 7 .go) ++
          .call .receive :: List.replicate 13 .go ++ .call .receive :: List.replicate 4 .go ++
          .uart 65 :: List.replicate 15 .go) m ∧
      m.current = ⟨.out .user, []⟩ ∧ ¬ ∃ l, m.kernel.sched.Linked [] l := by
  obtain ⟨k₀, m, hboot, hrun, hc⟩ := exists_run_of_boot Spares (fun _ => 2) 4096
    (([11, 12, 60, 80].flatMap fun pid => .call (.setPriority pid 3) :: List.replicate 7 .go) ++
      .call .receive :: List.replicate 13 .go ++ .call .receive :: List.replicate 4 .go ++
      .uart 65 :: List.replicate 15 .go)
    (fun m => (m.current = ⟨.out .user, []⟩ ∧ m.kernel.sched.runningProcess = some 4) &&
      3 ∈ m.kernel.sched.live && (List.range 5).all fun i =>
        (m.kernel.sched.queue .msgBlocked i = none ∧ m.kernel.sched.queue .memBlocked i = none) &&
        Chain m.kernel.sched.next (m.kernel.sched.queue .ready i)
          ([[], [], [2, 9, 10, 11, 12, 13, 14], [1, 5, 6, 7, 8], [0]].getD i [])) (by decide +kernel)
  simp only [Bool.and_eq_true, decide_eq_true_eq, List.all_eq_true, List.mem_range] at hc
  obtain ⟨⟨⟨hcur, hrun'⟩, hlive⟩, hqueues⟩ := hc
  refine ⟨k₀, m, hboot, hrun, hcur, ?_⟩
  rintro ⟨l, h⟩
  obtain ⟨q, i, hi, hmem⟩ := h.linked 3 hlive (by simp [hrun']) rfl
  obtain ⟨⟨hmsg, hmemory⟩, hready⟩ := hqueues i hi
  have hchain := h.chain q i
  cases q with
  | ready =>
    rw [hchain.unique hready] at hmem
    clear hready hmsg hmemory hchain
    revert i
    decide
  | msgBlocked =>
    rw [hmsg] at hchain
    rw [hchain.unique (chain_nil.mpr rfl)] at hmem
    cases hmem
  | memBlocked =>
    rw [hmemory] at hchain
    rw [hchain.unique (chain_nil.mpr rfl)] at hmem
    cases hmem

end Split

end RtxKernel
