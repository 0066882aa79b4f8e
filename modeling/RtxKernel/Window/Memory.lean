import RtxKernel.Window.Basic
import RtxKernel.Kernel.Ownership
import Mathlib.Data.Finset.Card

/-!
# Blocks between the test and the block

A block that is returned after a process has tested `availableBlocks`, and before the process calls
`block_process`, does not wake it: the process then sleeps although a block is available
(`block_lost`). As long as no block is returned at such a point, a process goes to sleep only when no
block is available, and while somebody sleeps there are no more blocks than processes that were woken
to take them (`no_block_lost`).
-/

namespace RtxKernel

namespace Machine

/-- No block is returned while a process is between its test and its block. -/
def Unreleased (m : Machine) : Move → Prop
  | .whole (.release x) => m.kernel.Owns x → ∀ p ∈ m.kernel.sched.live, m.point p ≠ .tested
  | _ => True

instance (m : Machine) : (v : Move) → Decidable (m.Unreleased v)
  | .whole (.release x) => inferInstanceAs (Decidable (m.kernel.Owns x →
      ∀ p ∈ m.kernel.sched.live, m.point p ≠ .tested))
  | .whole .releaseProcessor | .whole (.block _) | .whole (.unblockByPid _ _)
  | .whole (.unblockByType _) | .whole (.setPriority _ _) | .whole (.send _ _)
  | .whole (.delayedSend _ _ _) | .whole .receive | .whole .request | .whole (.store _ _)
  | .whole .terminate | .whole .timer | .whole (.uart _) | .scan | .sleepMsg | .test | .sleepMem =>
    .isTrue trivial

/-- The processes that were woken to take a block, and have not tested again. -/
def woken (m : Machine) : Finset PcbPtr :=
  m.kernel.sched.live.filter fun p =>
    m.point p = .waiting ∧ (m.kernel.sched.pcb p).state.isBlocked = false

/-- A process goes to sleep in `mem_blocked_queue` when no block is available, and while somebody sleeps
there are no more available blocks than woken processes. -/
def NoBlockLost (m : Machine) : Prop :=
  (∀ m', m.step .sleepMem = some m' → m.kernel.pool.areBlocksAvailable = false) ∧
    ∀ i l free, Chain m.kernel.sched.next (m.kernel.sched.queue .memBlocked i) l →
      Chain m.kernel.pool.next (m.kernel.pool.queue .availableBlocks) free →
      (∃ p ∈ l, m.kernel.sched.runningProcess ≠ some p) → free.length ≤ m.woken.card

end Machine

namespace Spec.Kernel

variable {a b : Kernel} {base : Nat} {r : PcbPtr} {op : Op} {reply : Reply}
  {point point' : PcbPtr → Point} {v : Move}

def Unreleased (a : Kernel) (point : PcbPtr → Point) : Move → Prop
  | .whole (.release x) => a.Owns x → ∀ p ∈ a.sched.live, point p ≠ .tested
  | _ => True

def woken (a : Kernel) (point : PcbPtr → Point) : Finset PcbPtr :=
  a.sched.live.filter fun p => point p = .waiting ∧ (a.sched.state p).isBlocked = false

lemma mem_woken {p : PcbPtr} : p ∈ a.woken point ↔
    p ∈ a.sched.live ∧ point p = .waiting ∧ (a.sched.state p).isBlocked = false :=
  Finset.mem_filter

/-- Blocks become available one at a time, when they are returned. -/
lemma Effect.available (he : a.Effect op reply b) (hok : a.Ok base r) :
    b.pool.available.length ≤ a.pool.available.length ∨
      ∃ x, op = .release x ∧ reply = .code 0 ∧ a.Owns x ∧
        b.pool.available.length = a.pool.available.length + 1 := by
  cases he with
  | sent s hb =>
    obtain ⟨c, -, rfl⟩ := address_eq_some_iff.mp hb
    exact .inl (Nat.le_refl _)
  | delayed hb =>
    obtain ⟨c, -, rfl⟩ := address_eq_some_iff.mp hb
    exact .inl (Nat.le_refl _)
  | granted hp =>
    obtain ⟨c, t, hav, -, rfl⟩ := take_cases hp
    exact .inl (by simp [hav])
  | released s hc hx ho => exact .inr ⟨_, rfl, rfl, ⟨_, hc, hx, ho⟩, by simp [giveBack]⟩
  | ticked s hb =>
    have hmv := hok.moves_tick hb
    rw [withSched_pool, hmv.pool]
    exact .inl (Nat.le_refl _)
  | typedLost hp =>
    obtain ⟨c, t, hav, -, rfl⟩ := take_cases hp
    rw [hav]
    exact .inl (Nat.le_succ _)
  | typed s hp hb =>
    obtain ⟨d, -, rfl⟩ := address_eq_some_iff.mp hb
    obtain ⟨c, t, hav, -, rfl⟩ := take_cases hp
    rw [hav]
    exact .inl (Nat.le_succ _)
  | _ => exact .inl (Nat.le_refl _)

/-- Who sleeps in `mem_blocked_queue` waits, nobody is about to sleep there while a block is available,
and for each available block somebody was woken. -/
structure Served (a : Kernel) (point : PcbPtr → Point) : Prop where
  asleep : ∀ p ∈ a.sched.live, a.sched.state p = .blockedMem → point p = .waiting
  tested : ∀ p ∈ a.sched.live, point p = .tested → a.pool.available = []
  enough : (∃ p ∈ a.sched.live, a.sched.state p = .blockedMem) →
    a.pool.available.length ≤ (a.woken point).card

namespace Served

/-- The running process is awake. -/
lemma ne_running (hok : a.Ok base r) {p : PcbPtr} (hb : a.sched.state p = .blockedMem) : p ≠ r := by
  rintro rfl
  rw [hok.sched.ready] at hb
  cases hb

lemma whole (h : a.Served point) (hok : a.Ok base r) (hop : op.isWhole = true)
    (hat : op.isInterrupt = true ∨ point r = .user) (hu : a.Unreleased point (.whole op))
    (hy : a.call op = some (reply, b)) : b.Served point := by
  obtain ⟨l, hl, hw⟩ := hok.wakes hop hy
  have hblive : b.sched.live = l := hw.live
  have hlive : ∀ p ∈ b.sched.live, p ∈ a.sched.live := by
    intro p hp
    rw [hblive] at hp
    rcases hl with rfl | ⟨-, rfl⟩
    · exact hp
    · exact Finset.mem_of_mem_erase hp
  have hasleep : ∀ p, b.sched.state p = .blockedMem → a.sched.state p = .blockedMem := by
    intro p hb
    exact (hw.state p (by rw [hb]; rfl)).symm.trans hb
  -- a process that ends is not among those that wait
  have hstay : ∀ p ∈ a.sched.live, point p = .waiting → p ∈ b.sched.live := by
    intro p hp hpw
    rw [hblive]
    rcases hl with rfl | ⟨rfl, rfl⟩
    · exact hp
    · refine Finset.mem_erase.mpr ⟨?_, hp⟩
      rintro rfl
      rcases hat with hint | hat
      · cases hint
      · rw [hat] at hpw
        cases hpw
  have hsub : a.woken point ⊆ b.woken point := by
    intro p hp
    obtain ⟨hp, hpw, hb⟩ := mem_woken.mp hp
    exact mem_woken.mpr ⟨hstay p hp hpw, hpw, hw.awake hb⟩
  refine ⟨?_, ?_, ?_⟩
  · intro p hp hb
    exact h.asleep p (hlive p hp) (hasleep p hb)
  · intro p hp hpt
    have hnone := h.tested p (hlive p hp) hpt
    rcases (hok.effect hy).available hok with hle | ⟨x, rfl, -, hown, -⟩
    · rw [hnone] at hle
      exact List.eq_nil_of_length_eq_zero (Nat.le_zero.mp hle)
    · exact absurd hpt (hu hown p (hlive p hp))
  · rintro ⟨p, hp, hb⟩
    have henough := h.enough ⟨p, hlive p hp, hasleep p hb⟩
    rcases (hok.effect hy).available hok with hle | ⟨x, rfl, rfl, hown, heq⟩
    · exact hle.trans (henough.trans (Finset.card_le_card hsub))
    · -- the block that is returned wakes one of the sleepers
      obtain ⟨p', hp', hb', hawake⟩ := hok.wakes_release hy ⟨p, hlive p hp, hasleep p hb⟩
      have hwait := h.asleep p' hp' hb'
      have hin : p' ∈ b.woken point := mem_woken.mpr ⟨hstay p' hp' hwait, hwait, hawake⟩
      have hout : p' ∉ a.woken point := by
        intro hp'
        obtain ⟨-, -, hnot⟩ := mem_woken.mp hp'
        rw [hb'] at hnot
        cases hnot
      have hlt := Finset.card_lt_card (Finset.ssubset_iff_of_subset hsub |>.mpr ⟨p', hin, hout⟩)
      omega

/-- The running process blocks. -/
lemma slept (h : a.Served point) (hok : a.Ok base r) {t : BlockType} {x : Point} (hx : x ≠ .tested)
    (hr : point r ≠ .waiting) (hmem : t = .mem → x = .waiting ∧ a.pool.available = []) :
    (a.withSched (a.sched.block a.sched.currentPid t)).Served (Function.update point r x) := by
  have hw := hok.sched.block_wakes t
  have hlive : (a.sched.block a.sched.currentPid t).live = a.sched.live := hw.live
  have hasleep : ∀ p, p ≠ r → (a.sched.block a.sched.currentPid t).state p = .blockedMem →
      a.sched.state p = .blockedMem := by
    intro p hpr hb
    have hb' := hw.state p (by rw [hb]; rfl)
    rw [hb, Sched.setState_state, if_neg hpr] at hb'
    exact hb'.symm
  refine ⟨?_, ?_, ?_⟩
  · intro p hp hb
    simp only [withSched_sched, hlive] at hp hb
    by_cases hpr : p = r
    · subst hpr
      have hb' := hw.state p (by rw [hb]; rfl)
      rw [hb, Sched.setState_state, if_pos rfl] at hb'
      cases t with
      | mem => rw [Function.update_self, (hmem rfl).1]
      | msg => cases hb'
    · rw [Function.update_of_ne hpr]
      exact h.asleep p hp (hasleep p hpr hb)
  · intro p hp hpt
    simp only [withSched_sched, hlive] at hp
    rw [Function.update_apply] at hpt
    split_ifs at hpt with hpr
    · exact absurd hpt hx
    · exact h.tested p hp hpt
  · rintro ⟨p, hp, hb⟩
    simp only [withSched_sched, hlive] at hp hb
    cases t with
    | mem =>
      rw [withSched_pool, (hmem rfl).2]
      exact Nat.zero_le _
    | msg =>
      have hpr : p ≠ r := by
        rintro rfl
        have hb' := hw.state p (by rw [hb]; rfl)
        rw [hb, Sched.setState_state, if_pos rfl] at hb'
        cases hb'
      refine (h.enough ⟨p, hp, hasleep p hpr hb⟩).trans (Finset.card_le_card ?_)
      intro y hy
      obtain ⟨hy, hyw, hyb⟩ := mem_woken.mp hy
      have hyr : y ≠ r := by
        rintro rfl
        exact hr hyw
      refine mem_woken.mpr ⟨?_, ?_, ?_⟩
      · rw [withSched_sched, hlive]
        exact hy
      · rwa [Function.update_of_ne hyr]
      · apply hw.awake
        rwa [Sched.setState_state, if_neg hyr]

/-- The running process goes on, with fewer blocks if it was woken for one. -/
lemma goes (h : a.Served point) (hok : a.Ok base r) {x : Point} (hs : b.sched = a.sched)
    (hle : b.pool.available.length ≤ a.pool.available.length)
    (htested : x = .tested → a.pool.available = [])
    (hone : point r = .waiting → a.pool.available ≠ [] →
      b.pool.available.length + 1 = a.pool.available.length) :
    b.Served (Function.update point r x) := by
  have hnil : a.pool.available = [] → b.pool.available = [] := by
    intro hav
    rw [hav] at hle
    exact List.eq_nil_of_length_eq_zero (Nat.le_zero.mp hle)
  refine ⟨?_, ?_, ?_⟩
  · intro p hp hb
    rw [hs] at hp hb
    rw [Function.update_of_ne (ne_running hok hb)]
    exact h.asleep p hp hb
  · intro p hp hpt
    rw [hs] at hp
    apply hnil
    rw [Function.update_apply] at hpt
    split_ifs at hpt with hpr
    · exact htested hpt
    · exact h.tested p hp hpt
  · intro hsleep
    rw [hs] at hsleep
    have henough := h.enough hsleep
    by_cases hav : a.pool.available = []
    · rw [hnil hav]
      exact Nat.zero_le _
    have hsub : (a.woken point).erase r ⊆ b.woken (Function.update point r x) := by
      intro y hy
      obtain ⟨hyr, hy⟩ := Finset.mem_erase.mp hy
      obtain ⟨hy, hyw, hyb⟩ := mem_woken.mp hy
      rw [mem_woken, hs, Function.update_of_ne hyr]
      exact ⟨hy, hyw, hyb⟩
    have hcard := Finset.card_le_card hsub
    by_cases hr : r ∈ a.woken point
    · obtain ⟨-, hrw, -⟩ := mem_woken.mp hr
      have hlen := hone hrw hav
      rw [Finset.card_erase_of_mem hr] at hcard
      omega
    · rw [Finset.erase_eq_of_notMem hr] at hcard
      exact hle.trans (henough.trans hcard)

theorem step (h : a.Served point) (hok : a.Ok base r) (hu : a.Unreleased point v)
    (hmv : Machine.Moved a r point v b point') : b.Served point' := by
  cases hmv with
  | whole hop hat hy => exact h.whole hok hop hat hu hy
  | found hat =>
    apply h.goes hok
    · rfl
    · exact Nat.le_refl _
    · exact nofun
    · rw [hat]
      exact nofun
  | scanned hat hnone =>
    apply h.goes hok
    · rfl
    · exact Nat.le_refl _
    · exact nofun
    · rw [hat]
      exact nofun
  | sleptMsg hat => exact h.slept hok (by decide) (by rw [hat]; decide) nofun
  | taken hat hp =>
    obtain ⟨c, t, hav, -, rfl⟩ := take_cases hp
    apply h.goes hok
    · rfl
    · simp [hav]
    · exact nofun
    · simp [hav]
  | tested hat hnone =>
    apply h.goes hok
    · rfl
    · exact Nat.le_refl _
    · exact fun _ => hnone
    · exact fun _ hne => absurd hnone hne
  | sleptMem hat =>
    have hnone := h.tested r (hok.sched.wf.running_live r hok.sched.running) hat
    exact h.slept hok (by decide) (by rw [hat]; decide) fun _ => ⟨rfl, hnone⟩

end Served

end Spec.Kernel

/-! ### Runs of the code -/

namespace Machine

variable {priority : Fin 6 → UInt8} {base : Nat} {k₀ : Kernel} {m m' : Machine} {vs : List Move}
  {a : Spec.Kernel} {r : PcbPtr} {v : Move}

lemma unreleased_iff (h : Sound base m.kernel a r) :
    m.Unreleased v ↔ a.Unreleased m.point v := by
  cases v with
  | whole op =>
    cases op with
    | release x =>
      simp only [Machine.Unreleased, Spec.Kernel.Unreleased, h.owns_iff, h.rep.sched.live]
    | _ => exact Iff.rfl
  | _ => exact Iff.rfl

lemma woken_eq (h : Sound base m.kernel a r) : m.woken = a.woken m.point := by
  rw [Machine.woken, Spec.Kernel.woken]
  simp only [h.rep.sched.live, h.rep.sched.state]

lemma noBlockLost (h : Sound base m.kernel a r) (hs : a.Served m.point) : m.NoBlockLost := by
  have hrep := h.rep.sched
  refine ⟨?_, ?_⟩
  · intro m' hm'
    rw [step] at hm'
    split_ifs at hm' with hat
    rw [here_eq h] at hat
    have hlive := h.ok.sched.wf.running_live r h.ok.sched.running
    rw [h.rep.pool.areBlocksAvailable, hs.tested r hlive (Option.some.inj hat)]
    rfl
  · rintro i l free hl hfree ⟨p, hp, -⟩
    rw [hl.unique (hrep.chain .memBlocked i)] at hp
    rw [hfree.unique (h.rep.pool.chain .availableBlocks), woken_eq h]
    obtain ⟨hlive, hq, -, -⟩ := (h.ok.sched.wf.mem_queue _ _ p).mp hp
    exact hs.enough ⟨p, hlive, Spec.Sched.state_eq_of_queue (t := .mem) hq⟩

/-- If no block is returned while a process is between its test and its block, then a process goes to
sleep in `mem_blocked_queue` only when no block is available, and while one sleeps there the available
blocks are no more than the processes woken to take them. -/
theorem no_block_lost (hprio : ∀ i, priority i ≤ 4) (hboot : boot priority base = some k₀)
    (h : Run (StepIf Unreleased) (start k₀) vs m) : m.NoBlockLost := by
  have hinv : ∃ a r, Sound base m.kernel a r ∧ a.Served m.point := by
    apply h.invariant (I := fun m => ∃ a r, Sound base m.kernel a r ∧ a.Served m.point)
    · obtain ⟨a, r, hs, hfresh⟩ := Safe.boot hprio hboot
      have hawake : ∀ p ∈ a.sched.live, a.sched.state p ≠ .blockedMem := by
        intro p hp hb
        have hnot := hfresh.awake p hp
        rw [hb] at hnot
        cases hnot
      refine ⟨a, r, hs.toSound, ?_, ?_, ?_⟩
      · intro p hp hb
        exact absurd hb (hawake p hp)
      · exact fun p _ => nofun
      · rintro ⟨p, hp, hb⟩
        exact absurd hb (hawake p hp)
    · rintro m v m' ⟨a, r, hsound, hserved⟩ ⟨hz, hu, hs⟩
      obtain ⟨b, r', hsound', hmv⟩ := moved hsound hz hs
      exact ⟨b, r', hsound', hserved.step hsound.ok ((unreleased_iff hsound).mp hu) hmv⟩
  obtain ⟨a, r, hsound, hserved⟩ := hinv
  exact noBlockLost hsound hserved

/-- The keyboard decoder takes all blocks and sleeps, with a delayed message on its way to it; so do the
other processes of its priority, and process 9 runs. -/
def exhausted : List Move :=
  List.replicate 30 .test ++ [.whole (.delayedSend 10 4096 1), .scan, .sleepMsg, .scan, .sleepMsg,
    .scan, .sleepMsg, .scan, .sleepMsg, .scan, .sleepMsg]

/-- The processes 9 and 8 sleep when a block is returned, and the first of them is woken. -/
theorem no_block_lost_for_sleeper : ∃ k₀ m, boot (fun _ => 2) 4096 = some k₀ ∧
    Run (StepIf Unreleased) (start k₀) (exhausted ++ [.test, .sleepMem, .test, .sleepMem,
      .whole .timer, .whole (.release 4224)]) m ∧
    m.woken.card = 1 ∧ m.kernel.sched.queue .memBlocked 2 = some 2 ∧ m.NoBlockLost := by
  obtain ⟨k₀, m, hboot, hrun, hc⟩ := exists_run_of_boot Unreleased (fun _ => 2) 4096
    (exhausted ++ [.test, .sleepMem, .test, .sleepMem, .whole .timer, .whole (.release 4224)])
    (fun m => m.woken.card = 1 ∧ m.kernel.sched.queue .memBlocked 2 = some 2) (by decide +kernel)
  obtain ⟨hcard, hqueue⟩ := of_decide_eq_true hc
  exact ⟨k₀, m, hboot, hrun, hcard, hqueue, no_block_lost (fun _ => by decide) hboot hrun⟩

/-- Process 9 finds no block; the tick then wakes the keyboard decoder, which returns one; and
process 9 goes to sleep all the same. -/
theorem block_lost : ∃ k₀ m m', boot (fun _ => 2) 4096 = some k₀ ∧
    Run (StepIf fun _ _ => True) (start k₀) (exhausted ++ [.test, .whole .timer,
      .whole (.release 4224), .scan, .scan, .sleepMsg]) m ∧
    m.StepIf (fun _ _ => True) .sleepMem m' ∧ ¬ m.NoBlockLost ∧ ¬ m'.NoBlockLost := by
  obtain ⟨k₀, m, hboot, hrun, hc⟩ := exists_run_of_boot (fun _ _ => True) (fun _ => 2) 4096
    (exhausted ++ [.test, .whole .timer, .whole (.release 4224), .scan, .scan, .sleepMsg])
    (fun m => m.kernel.pool.areBlocksAvailable = true ∧
      (tryMove (fun _ _ => True) m .sleepMem).any fun m' =>
        m'.kernel.sched.queue .memBlocked 1 = some 3 ∧ m'.kernel.sched.next 3 = none ∧
        m'.kernel.sched.runningProcess ≠ some 3 ∧ m'.woken.card = 0 ∧
        m'.kernel.pool.queue .availableBlocks = some 1 ∧ m'.kernel.pool.next 1 = none)
    (by decide +kernel)
  obtain ⟨hav, hstep⟩ := of_decide_eq_true hc
  obtain ⟨m', hm', hc'⟩ := (Option.any_eq_true _ _).mp hstep
  obtain ⟨hhead, hnext, hr, hcard, hfree, hlast⟩ := of_decide_eq_true hc'
  have hs := step_of_tryMove hm'
  refine ⟨k₀, m, m', hboot, hrun, hs, ?_, ?_⟩
  · rintro ⟨hno, -⟩
    rw [hno m' hs.2.2] at hav
    cases hav
  · rintro ⟨-, hno⟩
    have hle := hno 1 [3] [1] ⟨hhead, hnext⟩ ⟨hfree, hlast⟩ ⟨3, by simp, hr⟩
    rw [hcard] at hle
    cases hle

end Machine

end RtxKernel
