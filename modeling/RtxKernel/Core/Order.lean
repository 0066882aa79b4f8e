import RtxKernel.Core.Waiting

/-!
# Who is served first

Two processes wait for memory. The process `p` leads `q` if it runs, or if it is made ready and run before `q`: it
is ready under a level that is not behind that of `q`, or it waits so, and in a queue of one level it stands in
front (`Leads`). The operations of the scheduler keep this, as long as `q` is not woken while `p` waits.
-/

namespace RtxKernel

section Guards

variable {α : Type*} {p q x : α} {l : List α}

/-- In the list there is no `q` without a `p` in front of it. -/
def Guards (p q : α) (l : List α) : Prop := ∀ pre post, l = pre ++ q :: post → p ∈ pre

namespace Guards

lemma of_notMem (hq : q ∉ l) : Guards p q l := by
  rintro pre post rfl
  exact absurd (by simp) hq

lemma mem (h : Guards p q l) (hq : q ∈ l) : p ∈ l := by
  obtain ⟨pre, post, rfl⟩ := List.append_of_mem hq
  exact List.mem_append_left _ (h pre post rfl)

lemma head_ne (h : Guards p q (x :: l)) : x ≠ q := by
  rintro rfl
  cases h [] l rfl

lemma tail (h : Guards p q (x :: l)) (hx : x ≠ p) : Guards p q l := by
  rintro pre post rfl
  have hmem : p ∈ x :: pre := h (x :: pre) post rfl
  exact (List.mem_cons.mp hmem).resolve_left hx.symm

/-- An element comes behind the list. -/
lemma append (h : Guards p q l) (hx : x = q → p ∈ l) : Guards p q (l ++ [x]) := by
  intro pre post he
  rcases List.eq_nil_or_concat post with rfl | ⟨post', y, rfl⟩
  · obtain ⟨rfl, hxq⟩ := List.append_inj' he rfl
    exact hx (List.singleton_inj.mp hxq)
  · rw [List.concat_eq_append, ← List.cons_append, ← List.append_assoc] at he
    exact h pre post' (List.append_inj' he rfl).1

lemma erase [DecidableEq α] (h : Guards p q l) (hx : x ≠ p) : Guards p q (l.erase x) := by
  induction l with
  | nil => exact h
  | cons y l ih =>
    by_cases hy : y = x
    · subst hy
      rw [List.erase_cons_head]
      exact h.tail hx
    · rw [List.erase_cons_tail (by simpa using hy)]
      by_cases hyp : y = p
      · subst hyp
        intro pre post he
        cases pre with
        | nil => exact absurd (List.cons.inj he).1 h.head_ne
        | cons z pre =>
          rw [(List.cons.inj he).1]
          exact List.mem_cons_self
      · intro pre post he
        cases pre with
        | nil => exact absurd (List.cons.inj he).1 h.head_ne
        | cons z pre => exact List.mem_cons_of_mem _ (ih (h.tail hyp) pre post (List.cons.inj he).2)

end Guards

end Guards

namespace Spec.Sched

variable {a b : Sched} {p q r x : PcbPtr} {i : Nat} {Q : QueueName} {t : BlockType} {v : ProcessState}
  {w : UInt32} {u : Bool}

/-- Wherever `q` is in the queues, it stands behind `p`. -/
structure Behind (p q : PcbPtr) (a : Sched) : Prop where
  ready : ∀ i, q ∈ a.queue .ready i → (∃ j < i, p ∈ a.queue .ready j) ∨ Guards p q (a.queue .ready i)
  blocked : ∀ i, q ∈ a.queue .memBlocked i → (∃ j ≤ i, p ∈ a.queue .ready j) ∨
    (∃ j < i, p ∈ a.queue .memBlocked j) ∨ Guards p q (a.queue .memBlocked i)

/-- The process `p` runs, or `q` stands behind it. -/
def Leads (p q : PcbPtr) (a : Sched) : Prop :=
  a.running = some p ∨ a.running ≠ some q ∧ Behind p q a

namespace Behind

lemma of_queue (h : Behind p q a) (hr : b.queue .ready = a.queue .ready)
    (hm : b.queue .memBlocked = a.queue .memBlocked) : Behind p q b := by
  constructor
  · rw [hr]
    exact h.ready
  · rw [hr, hm]
    exact h.blocked

/-- Of the queues only one changes, in which only one process moves to the end. -/
lemma of_lists (h : Behind p q a) (hmem : ∀ Q i, p ∈ a.queue Q i → p ∈ b.queue Q i)
    (hq : ∀ Q i, q ∈ b.queue Q i → q ∈ a.queue Q i)
    (hg : ∀ Q i, Guards p q (a.queue Q i) → Guards p q (b.queue Q i)) : Behind p q b := by
  constructor
  · intro i hi
    rcases h.ready i (hq _ _ hi) with ⟨j, hj, hp⟩ | hguards
    · exact .inl ⟨j, hj, hmem _ _ hp⟩
    · exact .inr (hg _ _ hguards)
  · intro i hi
    rcases h.blocked i (hq _ _ hi) with ⟨j, hj, hp⟩ | ⟨j, hj, hp⟩ | hguards
    · exact .inl ⟨j, hj, hmem _ _ hp⟩
    · exact .inr (.inl ⟨j, hj, hmem _ _ hp⟩)
    · exact .inr (.inr (hg _ _ hguards))

lemma enqueue (h : Behind p q a) (hx : x ≠ q) : Behind p q (a.enqueue Q x) := by
  have hqueue : ∀ Q' i, (a.enqueue Q x).queue Q' i = a.queue Q' i ∨
      (a.enqueue Q x).queue Q' i = a.queue Q' i ++ [x] := by
    intro Q' i
    rw [Sched.enqueue, setQueue_queue]
    split_ifs with hqi
    · rw [hqi.1, hqi.2]
      exact .inr rfl
    · exact .inl rfl
  apply h.of_lists
  · intro Q' i hp
    rcases hqueue Q' i with he | he
    · rwa [he]
    · rw [he]
      exact List.mem_append_left _ hp
  · intro Q' i hq
    rcases hqueue Q' i with he | he
    · rwa [he] at hq
    · rw [he, List.mem_append, List.mem_singleton] at hq
      exact hq.resolve_right hx.symm
  · intro Q' i hg
    rcases hqueue Q' i with he | he
    · rwa [he]
    · rw [he]
      exact hg.append fun he => absurd he hx

lemma sleep (h : Behind p q a) (hx : x ≠ q) : Behind p q ((a.setState x v).enqueue Q x) :=
  Behind.enqueue (h.of_queue rfl rfl) hx

/-- Another process is filed anew. -/
lemma refile (h : Behind p q a) (hw : a.WF) (hr : a.running ≠ some x) (hp : x ≠ p) (hq : x ≠ q) :
    Behind p q (a.refile x v w) := by
  apply h.of_lists
  · intro Q i hmem
    rw [hw.refile_queue hr, refiled]
    exact List.mem_append_left _ ((List.mem_erase_of_ne hp.symm).mpr hmem)
  · intro Q i hmem
    rw [hw.refile_queue hr, refiled, List.mem_append] at hmem
    rcases hmem with hmem | hmem
    · exact List.mem_of_mem_erase hmem
    · split_ifs at hmem
      · exact absurd (List.mem_singleton.mp hmem).symm hq
      · cases hmem
  · intro Q i hg
    rw [hw.refile_queue hr, refiled]
    split_ifs
    · exact (hg.erase hp).append fun he => absurd he hq
    · rw [List.append_nil]
      exact hg.erase hp

lemma suspendRunning (h : Behind p q a) (hr : a.running = some q → a.state q ≠ .ready) :
    Behind p q a.suspendRunning := by
  rw [Sched.suspendRunning]
  cases hrun : a.running with
  | none => exact h
  | some r =>
    dsimp only
    split_ifs with hready
    · apply h.enqueue
      rintro rfl
      exact hr hrun hready.2
    · exact h

/-- The first ready process is not `q`. -/
lemma dispatch (h : Behind p q a) (hw : (a.setRunning none).WF) : Leads p q a.dispatch := by
  obtain ⟨i, x, hfirst⟩ := hw.exists_firstLevel rfl
  have hf : a.firstLevel .ready = some (i, x) := hfirst
  obtain ⟨-, hx, -, hcons, -⟩ := hw.of_firstLevel hfirst
  have hlist : a.queue .ready i = x :: (a.queue .ready i).tail := hcons
  obtain ⟨-, -, hbefore⟩ := firstLevel_eq_some_iff.mp hf
  have hstate : a.state x = .new ∨ a.state x = .ready := queue_eq_ready_iff.mp hx.symm
  rw [dispatch_eq hf hstate]
  by_cases hxp : x = p
  · exact .inl (congrArg some hxp)
  -- in front of `q` there would be `p`
  have hguards : q ∈ a.queue .ready i → Guards p q (a.queue .ready i) := by
    intro hq
    rcases h.ready i hq with ⟨j, hj, hp⟩ | hg
    · rw [hbefore j hj] at hp
      cases hp
    · exact hg
  right
  constructor
  · intro hxq
    obtain rfl : x = q := Option.some.inj hxq
    have hg := hguards (by rw [hlist]; exact List.mem_cons_self)
    rw [hlist] at hg
    exact hg.head_ne rfl
  · apply h.of_lists
    · intro Q j hp
      rw [setRunning_queue, setState_queue, setQueue_queue]
      split_ifs with hqi
      · rw [hqi.1, hqi.2, hlist] at hp
        exact (List.mem_cons.mp hp).resolve_left (Ne.symm hxp)
      · exact hp
    · intro Q j hq
      rw [setRunning_queue, setState_queue, setQueue_queue] at hq
      split_ifs at hq with hqi
      · rw [hqi.1, hqi.2]
        exact List.mem_of_mem_tail hq
      · exact hq
    · intro Q j hg
      rw [setRunning_queue, setState_queue, setQueue_queue]
      split_ifs with hqi
      · rw [hqi.1, hqi.2, hlist] at hg
        exact hg.tail hxp
      · exact hg

lemma procSwitch (h : Behind p q a) (hw : a.WF) (hr : a.running = some q → a.state q ≠ .ready) :
    Leads p q a.procSwitch := (h.suspendRunning hr).dispatch hw.suspendRunning

/-- Whatever a section has done, the processor is released or not. -/
lemma releaseIf (h : Behind p q a) (hw : a.WF) (hr : a.running ≠ some q) :
    Leads p q (Sched.releaseIf (u, a)) := by
  cases u with
  | false => exact .inr ⟨hr, h⟩
  | true => exact h.procSwitch hw fun hrun => absurd hrun hr

/-! ### Waking -/

lemma mem_queue_of_state (hw : a.WF) (hx : x ∈ a.live) (hs : a.state x = .blockedMem) :
    x ∈ a.queue .memBlocked (a.level x) ∧ ∀ i, x ∉ a.queue .ready i := by
  constructor
  · refine (hw.mem_queue _ _ x).mpr ⟨hx, by rw [hs]; rfl, rfl, ?_⟩
    intro _ hready
    rw [hs] at hready
    cases hready
  · intro i hi
    have hq := ((hw.mem_queue _ _ x).mp hi).2.1
    rw [hs] at hq
    cases hq

/-- If `p` waits then so does `q`, under a level that is not more urgent. -/
lemma notMem_ready (h : Behind p q a) (hp : ∀ i, p ∉ a.queue .ready i) (i : Nat) : q ∉ a.queue .ready i := by
  intro hq
  rcases h.ready i hq with ⟨j, -, hj⟩ | hg
  · exact hp j hj
  · exact hp i (hg.mem hq)

/-- A more urgent process leads. -/
lemma of_level (hw : a.WF) (hp : p ∈ a.live) (hr : a.running ≠ some p) (hmsg : a.state p ≠ .blockedMsg)
    (hlt : a.level p < a.level q) (hready : a.state p = .blockedMem → ∀ i, q ∉ a.queue .ready i) :
    Behind p q a := by
  have hmem : p ∈ a.queue (a.state p).queue (a.level p) :=
    (hw.mem_queue _ _ p).mpr ⟨hp, rfl, rfl, fun hrun => absurd hrun hr⟩
  constructor
  · intro i hi
    obtain rfl := ((hw.mem_queue _ _ q).mp hi).2.2.1
    refine .inl ⟨a.level p, hlt, ?_⟩
    cases hs : a.state p with
    | blockedMem => exact absurd hi (hready hs _)
    | blockedMsg => exact absurd hs hmsg
    | _ =>
      rw [hs] at hmem
      exact hmem
  · intro i hi
    obtain rfl := ((hw.mem_queue _ _ q).mp hi).2.2.1
    cases hs : a.state p with
    | blockedMem =>
      rw [hs] at hmem
      exact .inr (.inl ⟨a.level p, hlt, hmem⟩)
    | blockedMsg => exact absurd hs hmsg
    | _ =>
      rw [hs] at hmem
      exact .inl ⟨a.level p, Nat.le_of_lt hlt, hmem⟩

lemma wake_first (h : Behind p q a) (hw : a.WF) (hr : a.running ≠ some p) (hne : p ≠ q) (hp : p ∈ a.live)
    (hs : a.state p = .blockedMem) : Behind p q (a.refile p .ready (a.priority p)) := by
  obtain ⟨hmem, hnot⟩ := mem_queue_of_state hw hp hs
  have hqueue : ∀ Q i, q ∈ (a.refile p .ready (a.priority p)).queue Q i → q ∈ a.queue Q i := by
    intro Q i hq
    rw [hw.refile_queue hr, refiled, List.mem_append] at hq
    rcases hq with hq | hq
    · exact List.mem_of_mem_erase hq
    · split_ifs at hq
      · exact absurd (List.mem_singleton.mp hq).symm hne
      · cases hq
  have hnow : p ∈ (a.refile p .ready (a.priority p)).queue .ready (a.level p) := by
    rw [hw.refile_queue hr, refiled, if_pos ⟨rfl, rfl⟩]
    exact List.mem_append_right _ (List.mem_singleton_self p)
  constructor
  · intro i hi
    exact absurd (hqueue _ _ hi) (h.notMem_ready hnot i)
  · intro i hi
    refine .inl ⟨a.level p, ?_, hnow⟩
    rcases h.blocked i (hqueue _ _ hi) with ⟨j, -, hj⟩ | ⟨j, hj, hjp⟩ | hg
    · exact absurd hj (hnot j)
    · rw [← ((hw.mem_queue _ _ p).mp hjp).2.2.1]
      exact Nat.le_of_lt hj
    · rw [← ((hw.mem_queue _ _ p).mp (hg.mem (hqueue _ _ hi))).2.2.1]

/-- The process `q` is woken when `p` does not wait any more. -/
lemma wake_second (h : Behind p q a) (hw : a.WF) (hr : a.running ≠ some q) (hne : p ≠ q)
    (hq : q ∈ a.live) (hsq : a.state q = .blockedMem) (hsp : a.state p ≠ .blockedMem) :
    Behind p q (a.refile q .ready (a.priority q)) := by
  obtain ⟨hmem, hnot⟩ := mem_queue_of_state hw hq hsq
  have hpmem : ∀ i, p ∉ a.queue .memBlocked i := by
    intro i hi
    have hqueue := ((hw.mem_queue _ _ p).mp hi).2.1
    cases hs : a.state p with
    | blockedMem => exact hsp hs
    | _ =>
      rw [hs] at hqueue
      cases hqueue
  obtain ⟨j, hj, hready⟩ : ∃ j ≤ a.level q, p ∈ a.queue .ready j := by
    rcases h.blocked _ hmem with hready | ⟨j, -, hj⟩ | hg
    · exact hready
    · exact absurd hj (hpmem j)
    · exact absurd (hg.mem hmem) (hpmem _)
  have hkeep : ∀ Q i, p ∈ a.queue Q i → p ∈ (a.refile q .ready (a.priority q)).queue Q i := by
    intro Q i hi
    rw [hw.refile_queue hr, refiled]
    exact List.mem_append_left _ ((List.mem_erase_of_ne hne).mpr hi)
  constructor
  · intro i hi
    rw [hw.refile_queue hr, refiled, List.mem_append] at hi
    rcases hi with hi | hi
    · exact absurd (List.mem_of_mem_erase hi) (hnot i)
    · split_ifs at hi with hqi
      · have hlevel : i = a.level q := hqi.2
        subst hlevel
        rcases Nat.lt_or_eq_of_le hj with hlt | heq
        · exact .inl ⟨j, hlt, hkeep _ _ hready⟩
        · right
          rw [hw.refile_queue hr, refiled, if_pos ⟨rfl, rfl⟩, List.erase_of_not_mem (hnot _)]
          apply (Guards.of_notMem (hnot _)).append
          intro _
          rwa [← heq]
      · cases hi
  · intro i hi
    rw [hw.refile_queue hr, refiled, List.mem_append] at hi
    rcases hi with hi | hi
    · exact absurd hi ((hw.nodup _ _).mem_erase_iff.not.mpr fun hne' => hne'.1 rfl)
    · split_ifs at hi with hqi
      · cases hqi.1
      · cases hi

end Behind

/-- Releasing the processor changes no priority. -/
lemma WF.releaseIf_priority (hw : a.WF) : (Sched.releaseIf (u, a)).priority = a.priority := by
  cases u with
  | false => rfl
  | true =>
    obtain ⟨i, p, -, -, he⟩ := hw.procSwitch_eq
    have hsame : a.procSwitch.priority = a.suspendRunning.priority := by
      rw [he]
      rfl
    exact hsame.trans a.suspendRunning_fields.2.2.1

lemma setPrioritySection_same {pid v : Int32} (hf : a.find pid.toUInt32 = some x)
    (hv : v.toUInt32 = a.priority x) : ∃ code, a.setPrioritySection pid v = some (code, false, a) := by
  rw [Sched.setPrioritySection]
  split_ifs
  · exact ⟨_, rfl⟩
  · exact ⟨_, rfl⟩
  · rw [hf]
    dsimp only
    rw [if_pos hv]
    exact ⟨_, rfl⟩

/-- The processes `p` and `q` are ready or wait for memory, while `r` runs. -/
structure Contend (p q r : PcbPtr) (a : Sched) : Prop where
  ne : p ≠ q
  first : p ∈ a.live ∧ r ≠ p ∧ a.state p ≠ .blockedMsg
  second : q ∈ a.live ∧ r ≠ q ∧ a.state q ≠ .blockedMsg

lemma blockedMem_of_isBlocked (hx : (a.state x).isBlocked = true) (hmsg : a.state x ≠ .blockedMsg) :
    a.state x = .blockedMem := by
  cases hs : a.state x with
  | blockedMem => rfl
  | blockedMsg => exact absurd hs hmsg
  | _ =>
    rw [hs] at hx
    cases hx

lemma Contend.wake (h : Contend p q r a) : Contend p q r (a.refile x .ready w) := by
  have hstate : ∀ y, a.state y ≠ .blockedMsg → (a.refile x .ready w).state y ≠ .blockedMsg := by
    intro y hy
    rw [refile_state, Function.update_apply]
    split_ifs
    · nofun
    · exact hy
  exact ⟨h.ne, ⟨by simpa using h.first.1, h.first.2.1, hstate p h.first.2.2⟩,
    ⟨by simpa using h.second.1, h.second.2.1, hstate q h.second.2.2⟩⟩

namespace Steady

/-- A blocked process is made ready; `q` only when `p` does not wait for memory. -/
lemma behind_wake (h : a.Steady r) (hc : Contend p q r a) (hb : Behind p q a)
    (hx : (a.state x).isBlocked = true) (hq : x = q → a.state p ≠ .blockedMem) :
    Behind p q (a.refile x .ready (a.priority x)) := by
  have hrun := h.running_ne (h.ne_of_isBlocked hx)
  by_cases hxp : x = p
  · subst hxp
    exact hb.wake_first h.wf hrun hc.ne hc.first.1 (blockedMem_of_isBlocked hx hc.first.2.2)
  by_cases hxq : x = q
  · subst hxq
    exact hb.wake_second h.wf hrun hc.ne hc.second.1 (blockedMem_of_isBlocked hx hc.second.2.2) (hq rfl)
  · exact hb.refile h.wf hrun hxp hxq

lemma leads (h : a.Steady r) (hc : Contend p q r a) (hb : Behind p q a) : Leads p q a :=
  .inr ⟨h.running_ne hc.second.2.1.symm, hb⟩

/-- The process `q` is not unblocked by its pid while `p` waits for memory. -/
lemma behind_unblockByPidSection (h : a.Steady r) (hc : Contend p q r a) (hb : Behind p q a) {pid : UInt32}
    {y : Bool × Sched} (hy : a.unblockByPidSection pid = some y)
    (hmem : a.pid q = pid → a.state q = .blockedMem → a.state p ≠ .blockedMem) :
    Behind p q y.2 ∧ Contend p q r y.2 ∧ y.2.running = some r := by
  rcases unblockByPidSection_cases pid h.running with ⟨-, he⟩ | ⟨x, hf, hblocked, he⟩
  · obtain rfl := Option.some.inj (he.symm.trans hy)
    exact ⟨hb, hc, h.running⟩
  · obtain rfl := Option.some.inj (he.symm.trans hy)
    refine ⟨h.behind_wake hc hb hblocked ?_, hc.wake, (refile_running ..).trans h.running⟩
    rintro rfl
    exact hmem (h.wf.find_pid hf) (blockedMem_of_isBlocked hblocked hc.second.2.2)

lemma leads_unblockByPid (h : a.Steady r) (hc : Contend p q r a) (hb : Behind p q a) {pid : UInt32}
    {allow : Bool} (hs : a.unblockByPid pid allow = some b)
    (hmem : a.pid q = pid → a.state q = .blockedMem → a.state p ≠ .blockedMem) : Leads p q b := by
  rw [Sched.unblockByPid] at hs
  obtain ⟨y, hy, rfl⟩ := Option.map_eq_some_iff.mp hs
  have hw : y.2.WF := h.wf.unblockByPidSection hy fun x _ hrun => h.ready_of_running hrun
  obtain ⟨hb', -, hrun⟩ := h.behind_unblockByPidSection hc hb hy hmem
  apply hb'.releaseIf hw
  rw [hrun]
  intro hrq
  exact hc.second.2.1 (Option.some.inj hrq)

/-- The first process that waits for memory is unblocked. -/
lemma leads_unblockByType (h : a.Steady r) (hc : Contend p q r a) (hb : Behind p q a)
    (hs : a.unblockByType .mem = some b) : Leads p q b := by
  rw [Sched.unblockByType] at hs
  obtain ⟨y, hy, rfl⟩ := Option.map_eq_some_iff.mp hs
  have hne : a.running ≠ some q := h.running_ne hc.second.2.1.symm
  rcases unblockByTypeSection_cases h.wf h.running (h.ne_firstLevel .mem) with ⟨-, he⟩ | ⟨i, x, hf, he⟩
  · obtain rfl := Option.some.inj (he.symm.trans hy)
    exact hb.releaseIf h.wf hne
  · obtain rfl := Option.some.inj (he.symm.trans hy)
    obtain ⟨hl, hq, -, hcons, -⟩ := h.wf.of_firstLevel hf
    obtain ⟨-, -, hbefore⟩ := firstLevel_eq_some_iff.mp hf
    have hx : a.state x = .blockedMem := state_eq_of_queue hq
    have hxr := (h.ne_firstLevel .mem i x hf).symm
    have hlater : Behind p q (a.refile x .ready (a.priority x)) := by
      apply h.behind_wake hc hb
      · rw [hx]
        rfl
      · -- the first one is `q` only if `p` does not wait
        rintro rfl hp
        have hlist : a.queue .memBlocked i = x :: (a.queue .memBlocked i).tail := hcons
        have hmem : x ∈ a.queue .memBlocked i := by
          rw [hlist]
          exact List.mem_cons_self
        rcases hb.blocked i hmem with ⟨j, -, hj⟩ | ⟨j, hj, hjp⟩ | hg
        · exact (Behind.mem_queue_of_state h.wf hc.first.1 hp).2 j hj
        · have hempty : a.queue .memBlocked j = [] := hbefore j hj
          rw [hempty] at hjp
          cases hjp
        · rw [hlist] at hg
          exact hg.head_ne rfl
    apply hlater.releaseIf (h.wf.wake hl (h.running_ne hxr))
    rw [refile_running]
    exact hne

/-- Either `p` and `q` keep their priorities, or `p` is the more urgent one afterwards. -/
lemma leads_setProcessPriority (h : a.Steady r) (hz : a.pid r ≠ 0) (hc : Contend p q r a) (hb : Behind p q a)
    {pid v : Int32} {y : UInt32 × Sched} (hs : a.setProcessPriority pid v = some y)
    (hkeep : y.2.priority p = a.priority p ∧ y.2.priority q = a.priority q ∨ y.2.priority p < y.2.priority q) :
    Leads p q y.2 := by
  have hne : a.running ≠ some q := h.running_ne hc.second.2.1.symm
  rw [Sched.setProcessPriority] at hs
  obtain ⟨y, hy, rfl⟩ := Option.map_eq_some_iff.mp hs
  have hw := h.setPrioritySection hz hy
  rcases setPrioritySection_cases pid v h.running with
    ⟨code, he⟩ | ⟨-, -, -, x, hf, ⟨-, he⟩ | ⟨hxr, he⟩⟩
  · obtain rfl := Option.some.inj (he.symm.trans hy)
    exact .inr ⟨hne, hb⟩
  · obtain rfl := Option.some.inj (he.symm.trans hy)
    exact Behind.releaseIf (hb.of_queue rfl rfl) hw hne
  · by_cases hv : v.toUInt32 = a.priority x
    · obtain ⟨code, hsame⟩ := setPrioritySection_same (v := v) hf hv
      obtain rfl := Option.some.inj (hsame.symm.trans hy)
      exact .inr ⟨hne, hb⟩
    obtain rfl := Option.some.inj (he.symm.trans hy)
    dsimp only at hw hkeep ⊢
    rw [hw.releaseIf_priority] at hkeep
    apply Behind.releaseIf _ hw
    · rw [refile_running]
      exact hne
    by_cases hpq : x = p ∨ x = q
    · -- one of the two is filed anew, under another priority
      have hlt : (a.refile x (a.state x) v.toUInt32).priority p < (a.refile x (a.state x) v.toUInt32).priority q := by
        apply hkeep.resolve_left
        rintro ⟨hp, hq⟩
        rw [refile_priority] at hp hq
        rcases hpq with rfl | rfl
        · exact hv (by rwa [Function.update_self] at hp)
        · exact hv (by rwa [Function.update_self] at hq)
      have hstate : (a.refile x (a.state x) v.toUInt32).state = a.state := by simp
      apply Behind.of_level hw
      · rw [refile_live]
        exact hc.first.1
      · rw [refile_running]
        exact h.running_ne hc.first.2.1.symm
      · rw [hstate]
        exact hc.first.2.2
      · exact UInt32.lt_iff_toNat_lt.mp hlt
      · intro hp i hi
        rw [hstate] at hp
        have hq : q ∈ a.queue .ready (a.level q) := by
          refine (h.wf.mem_queue _ _ q).mpr ⟨hc.second.1, ?_, rfl, fun hrun => absurd hrun hne⟩
          rw [← hstate]
          exact ((hw.mem_queue _ _ q).mp hi).2.1
        exact hb.notMem_ready (Behind.mem_queue_of_state h.wf hc.first.1 hp).2 _ hq
    · rw [not_or] at hpq
      exact hb.refile h.wf (h.running_ne hxr) hpq.1 hpq.2

/-- The running process blocks. -/
lemma leads_block (h : a.Steady r) (hz : a.pid r ≠ 0)
    (hb : Behind p q ((a.setState r t.state).enqueue t.queue r)) : Leads p q (a.block a.currentPid t) := by
  have hpid : a.currentPid = a.pid r := by rw [currentPid, h.running]
  have hw := h.wf.blockSection (t := t) (hpid.trans_ne hz)
  rw [h.blockSection_running] at hw
  rw [Sched.block, h.blockSection_running]
  apply hb.procSwitch hw
  intro hrun hready
  obtain rfl : r = q := Option.some.inj (h.running.symm.trans hrun)
  have hstate : ((a.setState r t.state).enqueue t.queue r).state r = t.state := by
    simp [Sched.enqueue]
  rw [hstate] at hready
  cases t <;> cases hready

lemma block_priority (h : a.Steady r) (hz : a.pid r ≠ 0) : (a.block a.currentPid t).priority = a.priority := by
  have hpid : a.currentPid = a.pid r := by rw [currentPid, h.running]
  have hw := h.wf.blockSection (t := t) (hpid.trans_ne hz)
  rw [Sched.block, hw.releaseIf_priority, h.blockSection_running]
  rfl

/-- The running process blocks behind one that is ready or waits for memory. -/
lemma behind_sleep (h : a.Steady r) (hp : p ∈ a.live) (hne : p ≠ r) (hmsg : a.state p ≠ .blockedMsg)
    (hle : a.level p ≤ a.level r) : Behind p r ((a.setState r .blockedMem).enqueue .memBlocked r) := by
  have hnot : ∀ Q i, r ∉ a.queue Q i := fun Q i => h.wf.notMem_of_running h.running h.ready
  have hfiled : p ∈ a.queue (a.state p).queue (a.level p) :=
    (h.wf.mem_queue _ _ p).mpr ⟨hp, rfl, rfl, fun hrun => absurd hrun (h.running_ne hne)⟩
  constructor
  · intro i hi
    rw [Sched.enqueue, setQueue_queue, if_neg (by rintro ⟨hq, -⟩; cases hq)] at hi
    exact absurd hi (hnot _ _)
  · intro i hi
    rw [Sched.enqueue, setQueue_queue] at hi
    split_ifs at hi with hqi
    swap
    · exact absurd hi (hnot _ _)
    obtain rfl : i = a.level r := hqi.2
    cases hs : a.state p with
    | blockedMsg => exact absurd hs hmsg
    | blockedMem =>
      right
      rw [hs] at hfiled
      rcases Nat.lt_or_eq_of_le hle with hlt | heq
      · refine .inl ⟨a.level p, hlt, ?_⟩
        rw [Sched.enqueue, setQueue_queue, if_neg]
        · exact hfiled
        · rintro ⟨-, hlevel⟩
          exact Nat.ne_of_lt hlt hlevel
      · right
        rw [Sched.enqueue, setQueue_queue, if_pos ⟨rfl, rfl⟩]
        apply (Guards.of_notMem (hnot _ _)).append
        intro _
        change p ∈ a.queue .memBlocked (a.level r)
        rwa [← heq]
    | _ =>
      rw [hs] at hfiled
      refine .inl ⟨a.level p, hle, ?_⟩
      rw [Sched.enqueue, setQueue_queue, if_neg (by rintro ⟨hq, -⟩; cases hq)]
      exact hfiled

lemma leads_terminate (h : a.Steady r) (hz : a.pid r ≠ 0) (hb : Behind p q a) (hy : a.terminate = some b) :
    Leads p q b := by
  have hw := h.endProcess hz
  rw [Sched.terminate, h.running] at hy
  obtain rfl := Option.some.inj hy
  have hrem : a.remove r = a := by rw [remove, if_pos h.running]
  apply Behind.procSwitch _ hw
  · intro hrun
    rw [Sched.endProcess] at hrun
    cases hrun
  · rw [Sched.endProcess, hrem]
    exact hb.of_queue rfl rfl

end Steady

end Spec.Sched

end RtxKernel
