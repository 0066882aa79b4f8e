import RtxKernel.Interrupt.Stores
import RtxKernel.Core.Refile

/-!
# The queues between the stores of a section

A section that moves a process unlinks it, changes its fields, and links it again; the process switch takes the next
process out of the ready queue before it runs. Between two stores the process that is moved is in no queue, and
everything else is in order: the queues are null-terminated, no process is linked twice, and every other process is
linked or runs (`Scheduler.Linked`). `Scheduler.Orderly` says this of every state from here to the end of a section,
and there is a lemma for each of the sections.

The first store of `enqueue_process` links the process with the `next` that it has, and `process->next = NULL` comes
behind it. That is no matter, because `next` is null already: `remove_process` and `dequeue_process` have cleared it.
For the running process this is `Scheduler.Free`.
-/

namespace RtxKernel

open Spec (Sched)

/-- The piece links the process, or lets it run. -/
def Piece.moves (p : PcbPtr) : Piece → Bool
  | .enqueue _ x => x = p
  | .run x => x = some p
  | _ => false

namespace Spec.Sched

variable {a b : Sched} {p r : PcbPtr}

/-- The same process runs, and if it was ready it still is. -/
structure Stays (a b : Sched) : Prop where
  pid : b.pid = a.pid
  running : b.running = a.running
  ready : ∀ r, a.running = some r → a.state r = .ready → b.state r = .ready

namespace Stays

lemma refl (a : Sched) : a.Stays a := ⟨rfl, rfl, fun _ _ => id⟩

lemma refile (a : Sched) (p : PcbPtr) {v : ProcessState} (hv : v = .ready ∨ v = a.state p) (w : UInt32) :
    a.Stays (a.refile p v w) := by
  refine ⟨refile_pid .., refile_running .., ?_⟩
  intro r _ hr
  rw [refile_state, Function.update_apply]
  split_ifs with hp
  · subst hp
    rcases hv with rfl | rfl
    · rfl
    · exact hr
  · exact hr

end Stays

/-- The running process is found, and goes on to release the processor. -/
lemma Steady.blockSection (h : a.Steady r) (t : BlockType) :
    a.blockSection (a.pid r) t = (true, a.refile r t.state (a.priority r)) := by
  rcases blockSection_cases a (a.pid r) t with he | ⟨p, hf, -, he⟩
  · rw [Sched.blockSection, h.wf.find_running h.running] at he
    simp [h.ready, ProcessState.isBlocked, h.running] at he
  · obtain rfl := Option.some.inj ((h.wf.find_running h.running).symm.trans hf)
    rw [he, h.running]
    simp

end Spec.Sched

namespace Scheduler

/-- The queues are the null-terminated lists `l`, no process is in two of them, or in one twice, and each
live process that does not run and is not moved by the pieces that are left is in one. -/
structure Linked (s : Scheduler) (pieces : List Piece) (l : QueueName → Nat → List PcbPtr) : Prop where
  chain : ∀ q i, Chain s.next (s.queue q i) (l q i)
  nodup : ∀ q i, (l q i).Nodup
  disjoint : ∀ {p q i q' i'}, p ∈ l q i → p ∈ l q' i' → q = q' ∧ i = i'
  linked : ∀ p ∈ s.live, s.runningProcess ≠ some p → pieces.any (Piece.moves p) = false → ∃ q, ∃ i < 5, p ∈ l q i

/-- The running process has no link if it is ready. -/
def Free (s : Scheduler) : Prop :=
  ∀ r, s.runningProcess = some r → (s.pcb r).state = .ready → s.next r = none

/-- The pieces end with the scheduler `s'`, and the queues are in order all the way. -/
inductive Orderly : Scheduler → Option PcbPtr → List Piece → Scheduler → Prop
  | done {s l} (h : Linked s [] l) : Orderly s none [] s
  | clear {s s' p pieces l} (h : Linked s pieces l) (ht : Orderly (s.setNext p none) none pieces s') :
    Orderly s (some p) pieces s'
  | store {s s' x y pieces l} (h : Linked s (x :: pieces) l) (hx : s.first x = some y)
    (ht : Orderly y.1 y.2.1 (y.2.2 ++ pieces) s') : Orderly s none (x :: pieces) s'

variable {s s' s₁ : Scheduler} {a b : Sched} {p r : PcbPtr} {q : QueueName} {i : Nat} {pieces : List Piece}
  {l : QueueName → Nat → List PcbPtr} {c : Option PcbPtr} {x : Piece}

lemma Orderly.linked (h : Orderly s c pieces s') : ∃ l, s.Linked pieces l := by
  cases h with
  | done h => exact ⟨_, h⟩
  | clear h => exact ⟨_, h⟩
  | store h => exact ⟨_, h⟩

lemma Orderly.performAll (h : Orderly s c pieces s') : (s.clearNext c).performAll pieces = some s' := by
  induction h with
  | done => rfl
  | clear _ _ ih => exact ih
  | store _ hx _ ih => exact (performAll_first hx).symm.trans ih

/-! ### One process more or less -/

lemma startRunning_fields (s : Scheduler) : s.startRunning.next = s.next ∧
    s.startRunning.runningProcess = s.runningProcess ∧ s.startRunning.mainProcess = s.mainProcess := by
  rw [startRunning]
  cases hr : s.runningProcess with
  | none => exact ⟨rfl, hr, rfl⟩
  | some p =>
    dsimp only
    split_ifs
    · exact ⟨s.next_setState p .ready, hr, rfl⟩
    · exact ⟨rfl, hr, rfl⟩

lemma setNext_of_next (h : s.next p = none) : s.setNext p none = s := by
  have hp : { s.pcb p with next := none } = s.pcb p := by
    rw [← h]
    rfl
  rw [setNext, setPcb, hp, Function.update_eq_self]

/-- A process that is taken out of the ready queue to run has no link. -/
lemma next_dispatch (hr : s.dispatch.runningProcess = some r) (hm : r ≠ s.dispatch.mainProcess) :
    s.dispatch.next r = none := by
  have hwhole := whole_eq (s := s) (x := .dispatch)
  rw [first] at hwhole
  cases hq : s.firstLevel .ready with
  | none =>
    rw [hq] at hwhole
    rw [Option.some.inj hwhole] at hr hm
    obtain ⟨-, hrun, hmain⟩ := startRunning_fields { s with runningProcess := some s.mainProcess }
    exact absurd ((Option.some.inj (hr.symm.trans hrun)).trans hmain.symm) hm
  | some x =>
    obtain ⟨i, p⟩ := x
    rw [hq] at hwhole
    rw [Option.some.inj hwhole] at hr ⊢
    obtain ⟨hnext, hrun, -⟩ :=
      startRunning_fields { (s.setHead .ready i (s.next p)).setNext p none with runningProcess := some p }
    obtain rfl := Option.some.inj (hr.symm.trans hrun)
    exact (congrFun (hnext.trans (next_setNext ..)) r).trans (Function.update_self ..)

/-- The link of a process that is in no queue does not matter. -/
lemma Linked.of_setNext (h : (s.setNext p none).Linked pieces l) (hp : ∀ q i, p ∉ l q i) : s.Linked pieces l where
  chain q i := by
    have hc := h.chain q i
    rwa [next_setNext, queue_setNext, Chain.update_of_notMem (hp q i)] at hc
  nodup := h.nodup
  disjoint := h.disjoint
  linked := h.linked

end Scheduler

namespace Rep

variable {s s' s₁ s₂ : Scheduler} {a b : Sched} {p r : PcbPtr} {q : QueueName} {i : Nat} {pieces : List Piece}
  {v : ProcessState} {w : UInt32} {x : Piece}

/-- The queues of `s` are those of a scheduler `b` in which every process is filed, but for processes that run or
are moved. -/
lemma linked_of (h : Rep s a) (hb : b.WF) (hlive : a.live = b.live)
    (hsub : ∀ q i p, p ∈ a.queue q i → p ∈ b.queue q i)
    (hsup : ∀ q i p, p ∈ b.queue q i → pieces.any (Piece.moves p) = false → p ∈ a.queue q i)
    (hrun : ∀ r, b.running = some r → a.running = some r ∨ pieces.any (Piece.moves r) = true) :
    s.Linked pieces a.queue where
  chain := h.chain
  nodup q i := (h.chain q i).nodup
  disjoint := by
    intro p q i q' i' hp hp'
    obtain ⟨hq, hi⟩ := hb.placed.home (hsub q i p hp)
    obtain ⟨hq', hi'⟩ := hb.placed.home (hsub q' i' p hp')
    exact ⟨hq.trans hq'.symm, hi.trans hi'.symm⟩
  linked := by
    intro p hp hr hmoves
    rw [h.live, hlive] at hp
    rw [h.running] at hr
    refine ⟨_, _, hb.level_lt p hp, hsup _ _ p ((hb.mem_queue _ _ p).mpr ⟨hp, rfl, rfl, ?_⟩) hmoves⟩
    intro hr'
    rcases hrun p hr' with hr' | hm
    · exact absurd hr' hr
    · cases hmoves.symm.trans hm

lemma linked (h : Rep s a) (hw : a.WF) (pieces : List Piece) : s.Linked pieces a.queue :=
  h.linked_of hw rfl (fun _ _ _ => id) (fun _ _ _ hp _ => hp) fun _ => .inl

lemma orderly_nil (h : Rep s a) (hw : a.WF) : s.Orderly none [] s := .done (h.linked hw [])

/-- The process that is moved has been taken out of its queue. -/
lemma linked_remove (h : Rep s b) (hw : a.WF) (hr : a.running = some p → a.state p = .ready)
    (hlive : b.live = a.live) (hqueue : b.queue = (a.remove p).queue) (hrun : b.running = a.running)
    (hm : pieces.any (Piece.moves p) = true) : s.Linked pieces b.queue := by
  refine h.linked_of hw hlive ?_ ?_ ?_
  · intro q i x hx
    rw [hqueue] at hx
    exact ((hw.mem_remove hr).mp hx).1
  · intro q i x hx hmx
    rw [hqueue]
    refine (hw.mem_remove hr).mpr ⟨hx, ?_⟩
    rintro rfl
    cases hmx.symm.trans hm
  · intro r hr'
    exact .inl (hrun.trans hr')

lemma free_iff (h : Rep s a) : s.Free ↔ ∀ r, a.running = some r → a.state r = .ready → s.next r = none := by
  simp only [Scheduler.Free, h.running, h.state]

/-- A process that is in its queue is unlinked there, and no process in no queue gets a link. -/
lemma first_remove (h : Rep s a) (hw : a.WF) (hl : p ∈ a.live) (hr : a.running ≠ some p) :
    ∃ y, s.first (.remove p) = some (y, some p, []) ∧ ∀ x, (∀ q i, x ∉ a.queue q i) → y.next x = s.next x := by
  have hmem : p ∈ a.queue (a.state p).queue (a.level p) :=
    (hw.mem_queue _ _ p).mpr ⟨hl, rfl, rfl, fun hr' => absurd hr' hr⟩
  rw [Scheduler.first, h.running, if_neg hr, h.state, h.level]
  dsimp only
  split_ifs with hhead
  · exact ⟨_, rfl, fun _ _ => rfl⟩
  · -- it is behind another one
    obtain ⟨c, hc, hcp⟩ := (h.chain _ _).exists_pred hmem hhead
    have hsome : ((a.queue (a.state p).queue (a.level p)).find? fun c => s.next c = some p).isSome :=
      List.find?_isSome.mpr ⟨c, hc, decide_eq_true hcp⟩
    obtain ⟨c', hc'⟩ := Option.isSome_iff_exists.mp hsome
    simp only [h.search hw.placed, hc']
    refine ⟨_, rfl, ?_⟩
    intro x hx
    have hxc : x ≠ c' := by
      rintro rfl
      exact hx _ _ (List.mem_of_find?_eq_some hc')
    rw [Scheduler.next_setNext, Function.update_of_ne hxc]

/-- `remove_process`, store by store -/
lemma orderly_remove (h : Rep s a) (hw : a.WF) (hl : p ∈ a.live) (hr : a.running = some p → a.state p = .ready)
    (hfree : s.Free) (hm : pieces.any (Piece.moves p) = true) :
    ∃ s₁, Rep s₁ (a.remove p) ∧ s₁.next p = none ∧ s₁.Free ∧
      ∀ s', s₁.Orderly none pieces s' → s.Orderly none (.remove p :: pieces) s' := by
  by_cases hrun : a.running = some p
  · refine ⟨s, ?_, ?_, hfree, ?_⟩
    · rw [Sched.remove, if_pos hrun]
      exact h
    · exact hfree p (h.running.trans hrun) ((h.state p).trans (hr hrun))
    · intro s' ht
      refine .store (h.linked hw _) (y := (s, none, [])) ?_ ht
      rw [Scheduler.first, if_pos (h.running.trans hrun)]
  · obtain ⟨y, hy, hkeep⟩ := h.first_remove hw hl hrun
    obtain ⟨s₁, hs₁, hrep⟩ := h.removeProcess hw.placed p
    obtain rfl := Scheduler.whole_of_first hy hs₁
    have hp : ∀ q i, p ∉ (a.remove p).queue q i := fun q i hx => ((hw.mem_remove hr).mp hx).2 rfl
    have hlinked := hrep.linked_remove hw hr (by simp) rfl (by simp) hm
    refine ⟨_, hrep, by simp, hrep.free_iff.mpr ?_, fun s' ht => ?_⟩
    · intro r hrunr hready
      rw [Sched.remove_running] at hrunr
      rw [Sched.remove_state] at hready
      have hrp : r ≠ p := by
        rintro rfl
        exact hrun hrunr
      rw [Scheduler.next_setNext, Function.update_of_ne hrp, hkeep r fun q i => hw.notMem_of_running hrunr hready]
      exact h.free_iff.mp hfree r hrunr hready
    · exact .store (h.linked hw _) hy (.clear (hlinked.of_setNext hp) ht)

/-- A process is linked behind the last one of a queue, and no other process in no queue gets a link. -/
lemma first_enqueue (h : Rep s b) (hpl : b.Placed) (p : PcbPtr) (q : QueueName) :
    ∃ y, s.first (.enqueue q p) = some (y, some p, []) ∧ ∀ x, (∀ q i, x ∉ b.queue q i) → y.next x = s.next x := by
  rw [Scheduler.first, h.level]
  split_ifs with hhead
  · exact ⟨_, rfl, fun _ _ => rfl⟩
  · obtain ⟨k, c, hk⟩ := List.eq_nil_or_concat (b.queue q (b.level p)) |>.resolve_left
      fun hnil => hhead ((h.head_eq_none_iff _ _).mpr hnil)
    rw [List.concat_eq_append] at hk
    have hc := h.chain q (b.level p)
    rw [hk] at hc
    simp only [h.search hpl, hk, hc.find_isNone_next]
    refine ⟨_, rfl, ?_⟩
    intro x hx
    have hxc : x ≠ c := by
      rintro rfl
      exact hx q (b.level p) (by simp [hk])
    rw [Scheduler.next_setNext, Function.update_of_ne hxc]

/-- `enqueue_process`, store by store -/
lemma orderly_enqueue (h : Rep s b) (hpl : b.Placed) (hp : ∀ q i, p ∉ b.queue q i) (hn : s.next p = none)
    (hlinked : s.Linked (.enqueue q p :: pieces) b.queue) :
    ∃ s₁, Rep s₁ (b.enqueue q p) ∧ (∀ x, (∀ q i, x ∉ b.queue q i) → s₁.next x = s.next x) ∧
      ∀ s', s₁.Orderly none pieces s' → s.Orderly none (.enqueue q p :: pieces) s' := by
  obtain ⟨y, hy, hkeep⟩ := h.first_enqueue hpl p q
  have hyp : y.setNext p none = y := Scheduler.setNext_of_next ((hkeep p hp).trans hn)
  obtain ⟨s₁, hs₁, hrep⟩ := h.enqueueProcess hpl hp q
  obtain rfl : y = s₁ := hyp.symm.trans (Scheduler.whole_of_first hy hs₁)
  refine ⟨_, hrep, hkeep, ?_⟩
  intro s' ht
  obtain ⟨l, hl⟩ := ht.linked
  refine .store hlinked hy (.clear hl ?_)
  rw [hyp]
  exact ht

/-! ### The sections -/

/-- The process that was taken out of its queue gets the state `v` and the priority `w` and is linked again. -/
lemma orderly_file (h : Rep s₁ (a.remove p)) (hw : a.WF) (hr : a.running = some p → a.state p = .ready)
    (hn : s₁.next p = none) (hfree : s₁.Free) (hb : (a.refile p v w).WF)
    (hx : ∃ s₂, s₁.first x = some (s₂, none, []) ∧ s₂.next = s₁.next ∧
      Rep s₂ (((a.remove p).setState p v).setPriority p w)) :
    ∃ s', s₁.Orderly none [x, .enqueue v.queue p] s' ∧ Rep s' (a.refile p v w) ∧ s'.Free := by
  obtain ⟨s₂, hfirst, hnext, hrep⟩ := hx
  have hp : ∀ q i, p ∉ (a.remove p).queue q i := fun q i hx => ((hw.mem_remove hr).mp hx).2 rfl
  have hlinked : s₂.Linked [.enqueue v.queue p] (((a.remove p).setState p v).setPriority p w).queue :=
    hrep.linked_remove hw hr (by simp) rfl (by simp) (by simp [Piece.moves])
  obtain ⟨s', hrep', hkeep, hend⟩ := hrep.orderly_enqueue (hw.placed_remove hr v w) hp (by rw [hnext, hn]) hlinked
  have hrep' : Rep s' (a.refile p v w) := hrep'
  have horder := hend s' (hrep'.orderly_nil hb)
  refine ⟨s', .store (h.linked_remove hw hr (by simp) rfl (by simp) ?_) hfirst horder, hrep', ?_⟩
  · simp [Piece.moves]
  · -- the running process is another one, and in no queue
    rw [hrep'.free_iff]
    intro r hrun hready
    have hnot : ∀ q i, r ∉ (a.refile p v w).queue q i := fun q i => hb.notMem_of_running hrun hready
    have hrp : r ≠ p := by
      rintro rfl
      exact hnot v.queue w.toNat ((hw.mem_refile hr).mpr (.inr ⟨rfl, rfl, rfl⟩))
    rw [Sched.refile_running] at hrun
    rw [Sched.refile_state, Function.update_of_ne hrp] at hready
    rw [hkeep r fun q i hx => hw.notMem_of_running hrun hready ((hw.mem_remove hr).mp hx).1, hnext]
    exact h.free_iff.mp hfree r (by simpa using hrun) (by simpa using hready)

lemma setState_removed (h : Rep s (a.remove p)) (v : ProcessState) :
    Rep (s.setState p v) (((a.remove p).setState p v).setPriority p (a.priority p)) := by
  have hself := Sched.setPriority_self ((a.remove p).setState p v) p
  rw [Sched.setState_priority, Sched.remove_priority] at hself
  rw [hself]
  exact h.setState p v

/-- The process is taken out of its queue, gets the state `v`, and is linked again. -/
lemma orderly_refile (h : Rep s a) (hw : a.WF) (hfree : s.Free) (hl : p ∈ a.live)
    (hr : a.running = some p → a.state p = .ready) (hb : (a.refile p v (a.priority p)).WF) :
    ∃ s', s.Orderly none [.remove p, .setState p v, .enqueue v.queue p] s' ∧
      Rep s' (a.refile p v (a.priority p)) ∧ s'.Free := by
  have hm : [Piece.setState p v, .enqueue v.queue p].any (Piece.moves p) = true := by simp [Piece.moves]
  obtain ⟨s₁, hrep, hn, hfree₁, hend⟩ := h.orderly_remove hw hl hr hfree hm
  obtain ⟨s', horder, hrep', hfree'⟩ := hrep.orderly_file (x := .setState p v) hw hr hn hfree₁ hb
    ⟨_, rfl, s₁.next_setState p v, hrep.setState_removed v⟩
  exact ⟨s', hend s' horder, hrep', hfree'⟩

/-- The process gets the priority `w`, and is taken out of its queue before and linked again behind. -/
lemma orderly_setPriority (h : Rep s a) (hw : a.WF) (hfree : s.Free) (hl : p ∈ a.live) (hr : a.running ≠ some p)
    (hb : (a.refile p (a.state p) w).WF) :
    ∃ s', s.Orderly none [.remove p, .setPriority p w, .enqueue (a.state p).queue p] s' ∧
      Rep s' (a.refile p (a.state p) w) ∧ s'.Free := by
  have hready : a.running = some p → a.state p = .ready := fun hr' => absurd hr' hr
  have hm : [Piece.setPriority p w, .enqueue (a.state p).queue p].any (Piece.moves p) = true := by simp [Piece.moves]
  obtain ⟨s₁, hrep, hn, hfree₁, hend⟩ := h.orderly_remove hw hl hready hfree hm
  have hself : ((a.remove p).setState p (a.state p)).setPriority p w = (a.remove p).setPriority p w := by
    rw [← Sched.remove_state (a := a) (p := p), Sched.setState_self]
  obtain ⟨s', horder, hrep', hfree'⟩ := hrep.orderly_file (x := .setPriority p w) hw hready hn hfree₁ hb
    ⟨_, rfl, s₁.next_setPriority p w, hself ▸ hrep.setPriority p w⟩
  exact ⟨s', hend s' horder, hrep', hfree'⟩

/-- The first process of a queue is taken out, made ready, and linked into the ready queue. -/
lemma orderly_take (h : Rep s a) (hw : a.WF) (hfree : s.Free) (hfirst : a.firstLevel q = some (i, p))
    (hr : a.running ≠ some p) (hb : (a.refile p .ready (a.priority p)).WF) :
    ∃ s', s.Orderly none [.take q i p, .setState p .ready, .enqueue .ready p] s' ∧
      Rep s' (a.refile p .ready (a.priority p)) ∧ s'.Free := by
  have hready : a.running = some p → a.state p = .ready := fun hr' => absurd hr' hr
  have hrep := h.unlink_firstLevel hw.placed hfirst
  rw [hw.setQueue_tail hfirst hr] at hrep
  set s₁ := (s.setHead q i (s.next p)).setNext p none with hs₁
  have hn : s₁.next p = none := by simp [hs₁]
  have hfree₁ : s₁.Free := by
    rw [hrep.free_iff]
    intro r hrun hst
    rw [Sched.remove_running] at hrun
    rw [Sched.remove_state] at hst
    have hrp : r ≠ p := by
      rintro rfl
      exact hr hrun
    rw [hs₁, Scheduler.next_setNext, Function.update_of_ne hrp]
    exact h.free_iff.mp hfree r hrun hst
  obtain ⟨s', horder, hrep', hfree'⟩ := hrep.orderly_file (x := .setState p .ready) hw hready hn hfree₁ hb
    ⟨_, rfl, s₁.next_setState p .ready, hrep.setState_removed .ready⟩
  have hlinked : (s.setHead q i (s.next p)).Linked [.setState p .ready, .enqueue .ready p] (a.remove p).queue := by
    have hm : [Piece.setState p .ready, .enqueue .ready p].any (Piece.moves p) = true := by simp [Piece.moves]
    exact (hrep.linked_remove hw hready (by simp) rfl (by simp) hm).of_setNext fun q i hx =>
      ((hw.mem_remove hready).mp hx).2 rfl
  exact ⟨s', .store (h.linked hw _) rfl (.clear hlinked horder), hrep', hfree'⟩

/-- The next process is taken out of the ready queue, and runs. -/
lemma orderly_dispatch (h : Rep s a.suspendRunning) (hw : a.WF) :
    ∃ s', s.Orderly none [.dispatch] s' ∧ Rep s' a.procSwitch ∧ s'.Free := by
  obtain ⟨i, p, hfirst, -, heq⟩ := hw.procSwitch_eq
  obtain ⟨r, hr⟩ := hw.procSwitch
  have hrun := hr.running
  rw [heq] at hrun
  obtain rfl : p = r := Option.some.inj hrun
  have hplaced : a.suspendRunning.Placed := ⟨hw.suspendRunning.placed.home, hw.suspendRunning.placed.bound⟩
  set b := a.suspendRunning.setQueue .ready i (a.suspendRunning.queue .ready i).tail with hb
  have hqueue : a.procSwitch.queue = b.queue := by
    rw [heq]
    rfl
  have hlive : b.live = a.procSwitch.live := by
    rw [heq]
    rfl
  have hp : ∀ q j, p ∉ b.queue q j := fun q j => hqueue ▸ hr.wf.notMem_of_running hr.running hr.ready
  have hrep : Rep ((s.setHead .ready i (s.next p)).setNext p none) b := h.unlink_firstLevel hplaced hfirst
  have hx : s.first .dispatch = some (s.setHead .ready i (s.next p), some p, [.run (some p), .start]) := by
    rw [Scheduler.first, h.firstLevel, hfirst]
  have hend : { (s.setHead .ready i (s.next p)).setNext p none with runningProcess := some p }.startRunning =
      s.dispatch := by
    have hwhole := Scheduler.whole_eq (s := s) (x := .dispatch)
    rw [hx] at hwhole
    exact (Option.some.inj hwhole).symm
  have hfinal : Rep s.dispatch a.procSwitch := h.dispatch hplaced
  -- from the end of the section back to its start
  have hlinked : (s.setHead .ready i (s.next p)).setNext p none |>.Linked [.run (some p), .start] b.queue := by
    refine hrep.linked_of hr.wf hlive (fun q j x hx => hqueue ▸ hx) (fun q j x hx _ => hqueue ▸ hx) ?_
    intro x hx
    obtain rfl := Option.some.inj (hr.running.symm.trans hx)
    exact .inr (by simp [Piece.moves])
  have hlinked' : Scheduler.Linked { (s.setHead .ready i (s.next p)).setNext p none with runningProcess := some p }
      [.start] b.queue :=
    (hrep.setRunning (some p)).linked_of hr.wf hlive (fun q j x hx => hqueue ▸ hx) (fun q j x hx _ => hqueue ▸ hx)
      fun x hx => .inl (hr.running.symm.trans hx)
  have hstart : s.Linked [.dispatch] a.suspendRunning.queue :=
    h.linked_of hw.suspendRunning rfl (fun _ _ _ => id) (fun _ _ _ hx _ => hx) fun x hx => by cases hx
  refine ⟨s.dispatch, .store hstart hx (.clear (hlinked.of_setNext hp) ?_), hfinal, ?_⟩
  · refine .store hlinked rfl (.store hlinked' rfl ?_)
    dsimp only
    rw [hend]
    exact hfinal.orderly_nil hr.wf
  · rw [hfinal.free_iff]
    intro x hx _
    obtain rfl := Option.some.inj (hr.running.symm.trans hx)
    exact Scheduler.next_dispatch (hfinal.running.trans hx) fun hm => hr.wf.main_notMem
      (hfinal.main ▸ hm ▸ hr.wf.running_live p hx)

/-- `proc_switch_handler`, store by store -/
theorem orderly_switch (h : Rep s a) (hw : a.WF) (hfree : s.Free) :
    ∃ s', s.Orderly none s.switchPieces s' ∧ Rep s' a.procSwitch ∧ s'.Free := by
  have hdispatch := fun s' (h' : Rep s' a.suspendRunning) => h'.orderly_dispatch hw
  rw [Sched.suspendRunning] at hdispatch
  rw [Scheduler.switchPieces, h.running]
  cases hr : a.running with
  | none =>
    rw [hr] at hdispatch
    exact hdispatch s h
  | some r =>
    rw [hr] at hdispatch
    dsimp only at hdispatch ⊢
    rw [h.main, h.state]
    split_ifs at hdispatch ⊢ with hready
    · have hnot : ∀ q i, r ∉ a.queue q i := fun q i => hw.notMem_of_running hr hready.2
      obtain ⟨s₁, hrep, -, hend⟩ := h.orderly_enqueue hw.placed hnot
        (h.free_iff.mp hfree r hr hready.2) (h.linked hw [.enqueue .ready r, .dispatch])
      obtain ⟨s', horder, hrep', hfree'⟩ := hdispatch s₁ hrep
      exact ⟨s', hend s' horder, hrep', hfree'⟩
    · exact hdispatch s h

/-! ### The plans -/

variable {pid : UInt32} {t : BlockType} {w : Plan}

/-- `block_process`, for the running process -/
theorem orderly_block (h : Rep s a) (hs : a.Steady r) (hfree : s.Free) (hz : a.pid r ≠ 0)
    (hp : s.blockPlan (a.pid r) t = some w) :
    w.test = .runs r ∧ ∃ s' b, s.Orderly none w.pieces s' ∧ Rep s' b ∧ b.WF ∧ b.pid = a.pid ∧
      b.running = a.running ∧ s'.Free := by
  rw [Scheduler.blockPlan, h.getProcessByPid hs.wf.placed, hs.wf.find_running hs.running] at hp
  simp only [Option.bind_eq_bind, Option.bind_some, h.state, hs.ready] at hp
  obtain rfl := Option.some.inj hp
  have hb := hs.wf.blockSection (t := t) hz
  rw [hs.blockSection t] at hb
  obtain ⟨s', horder, hrep, hfree'⟩ := h.orderly_refile (p := r) (v := t.state) hs.wf hfree
    (hs.wf.running_live r hs.running) (fun _ => hs.ready) hb
  rw [BlockType.queue_state] at horder
  exact ⟨rfl, s', _, horder, hrep, hb, by simp, by simp, hfree'⟩

/-- `unblock_process_by_pid`, for a process that it may meet -/
theorem orderly_unblockByPid (h : Rep s a) (hw : a.WF) (hfree : s.Free) (hp : s.unblockByPidPlan pid = some w)
    (hspare : ∀ r, a.running = some r → a.pid r = pid → (a.state r).isBlocked = false) :
    ∃ s' b, s.Orderly none w.pieces s' ∧ Rep s' b ∧ b.WF ∧ a.Stays b ∧ s'.Free := by
  rw [Scheduler.unblockByPidPlan, h.getProcessByPid hw.placed] at hp
  cases hf : a.find pid with
  | none =>
    rw [hf] at hp
    obtain rfl := Option.some.inj hp
    exact ⟨s, a, h.orderly_nil hw, h, hw, .refl a, hfree⟩
  | some p =>
    rw [hf] at hp
    simp only [Option.bind_eq_bind, Option.bind_some, h.state] at hp
    split_ifs at hp with hblocked
    · obtain rfl := Option.some.inj hp
      have hrun : a.running ≠ some p := by
        intro hp
        rw [hspare p hp (hw.find_pid hf)] at hblocked
        cases hblocked
      have hb := hw.wake (hw.find_live hf) hrun
      obtain ⟨s', horder, hrep, hfree'⟩ := h.orderly_refile (v := .ready) hw hfree (hw.find_live hf)
        (fun hr => absurd hr hrun) hb
      exact ⟨s', _, horder, hrep, hb, .refile a p (.inl rfl) _, hfree'⟩
    · obtain rfl := Option.some.inj hp
      exact ⟨s, a, h.orderly_nil hw, h, hw, .refl a, hfree⟩

/-- `unblock_process_by_type` -/
theorem orderly_unblockByType (h : Rep s a) (hs : a.Steady r) (hfree : s.Free) (t : BlockType) :
    ∃ s' b, s.Orderly none (s.unblockByTypePlan t).pieces s' ∧ Rep s' b ∧ b.WF ∧ a.Stays b ∧ s'.Free := by
  rw [Scheduler.unblockByTypePlan, h.firstLevel]
  cases hf : a.firstLevel t.queue with
  | none => exact ⟨s, a, h.orderly_nil hs.wf, h, hs.wf, .refl a, hfree⟩
  | some x =>
    obtain ⟨i, p⟩ := x
    have hrun := hs.running_ne (hs.ne_firstLevel t i p hf).symm
    have hb := hs.wf.wake (hs.wf.of_firstLevel hf).1 hrun
    obtain ⟨s', horder, hrep, hfree'⟩ := h.orderly_take hs.wf hfree hf hrun hb
    exact ⟨s', _, horder, hrep, hb, .refile a p (.inl rfl) _, hfree'⟩

/-- `set_process_priority_handler` -/
theorem orderly_prioritize (h : Rep s a) (hs : a.Steady r) (hfree : s.Free) (hz : a.pid r ≠ 0) {x v : Int32}
    (hp : s.setPriorityPlan x v = some w) :
    ∃ s' b, s.Orderly none w.pieces s' ∧ Rep s' b ∧ b.WF ∧ a.Stays b ∧ s'.Free := by
  have hnone : ∀ test, ⟨[], test⟩ = w → ∃ s' b, s.Orderly none w.pieces s' ∧ Rep s' b ∧ b.WF ∧ a.Stays b ∧ s'.Free := by
    rintro test rfl
    exact ⟨s, a, h.orderly_nil hs.wf, h, hs.wf, .refl a, hfree⟩
  rw [Scheduler.setPriorityPlan, h.getProcessByPid hs.wf.placed] at hp
  split_ifs at hp with h0 hv
  · exact hnone _ (Option.some.inj hp)
  · exact hnone _ (Option.some.inj hp)
  · obtain ⟨hv0, hv3⟩ := not_or.mp hv
    replace hv0 := Int32.not_lt.mp hv0
    replace hv3 := Int32.not_lt.mp hv3
    cases hf : a.find x.toUInt32 with
    | none =>
      rw [hf] at hp
      exact hnone _ (Option.some.inj hp)
    | some p =>
      rw [hf] at hp
      simp only [Option.bind_eq_bind, Option.bind_some, h.priority, h.running, h.state] at hp
      split_ifs at hp with hsame hrun
      · exact hnone _ (Option.some.inj hp)
      · obtain rfl := Option.some.inj hp
        have hb := hs.wf.refilePriority (Int32.not_le.mp h0) hf hv0 hv3 hrun
        obtain ⟨s', horder, hrep, hfree'⟩ := h.orderly_setPriority hs.wf hfree (hs.wf.find_live hf) hrun hb
        exact ⟨s', _, horder, hrep, hb, .refile a p (.inr rfl) _, hfree'⟩
      · -- the running process is in no queue
        obtain rfl := Option.some.inj hp
        obtain rfl : r = p := Option.some.inj (hs.running.symm.trans (not_not.mp hrun))
        have hb := hs.setPriority (Sched.toNat_lt_five (Sched.toUInt32_le hv0 hv3)) hz
        have hrep := h.setPriority r v.toUInt32
        refine ⟨_, _, .store (h.linked hs.wf _) rfl (hrep.orderly_nil hb.wf), hrep, hb.wf, ?_, ?_⟩
        · exact ⟨rfl, rfl, fun _ _ => id⟩
        · rw [hrep.free_iff, Scheduler.next_setPriority]
          exact h.free_iff.mp hfree

end Rep

end RtxKernel
