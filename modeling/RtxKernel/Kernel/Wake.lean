import RtxKernel.Kernel.Delivery
import RtxKernel.Core.Wake

/-!
# Operations that wake

No process blocks and none ends with an operation apart from the blocking ones and the end of a process
(`Ok.wakes`). The receiver of a message that is put into the mailbox is woken.
-/

namespace RtxKernel

/-- The operations in which the running process does not block. -/
def Op.isWhole : Op → Bool
  | .block _ | .receive | .request => false
  | _ => true

namespace Spec.Kernel

open Sched (Wakes Rouses)

variable {a b : Kernel} {base : Nat} {r : PcbPtr}

lemma Ok.wakes_sendMessage (h : a.Ok base r) {pid : UInt32} {e : Nat} {y : UInt32 × Kernel}
    (hy : a.sendMessage pid e = some y) :
    a.sched.Wakes y.2.sched ∧ (y.1 = 0 → y.2.sched.Awake pid) := by
  rw [Kernel.sendMessage] at hy
  obtain ⟨x, hx, hy⟩ := Option.bind_eq_some_iff.mp hy
  rcases sendSection_cases hx with ⟨-, c, hc, rfl⟩ | ⟨-, b, hb, rfl⟩
  · obtain rfl := Option.some.inj hy
    exact ⟨.refl _, fun hzero => absurd hzero hc⟩
  · obtain ⟨-, hs⟩ := h.address hb
    obtain ⟨s, hs', hy⟩ := Option.bind_eq_some_iff.mp hy
    obtain rfl := Option.some.inj hy
    rw [hs] at hs'
    obtain ⟨hw, hawake⟩ := h.sched.wakes_unblockByPid hs'
    exact ⟨hw, fun _ => hawake⟩

lemma wakes_wakeReceiver (h : a.sched.Steady r) {pid w : UInt32} {x : UInt32 × Kernel}
    (hx : a.wakeReceiver pid w = some x) :
    a.sched.Wakes x.2.sched ∧ x.2.sched.Awake pid := by
  rw [wakeReceiver] at hx
  cases hf : a.sched.find pid with
  | none =>
    rw [hf] at hx
    obtain rfl := Option.some.inj hx
    refine ⟨.refl _, ?_⟩
    intro p hp hpid
    rw [h.wf.find_eq_some_iff.mpr ⟨hp, hpid⟩] at hf
    cases hf
  | some p =>
    rw [hf] at hx
    dsimp only at hx
    split_ifs at hx with hb
    · obtain ⟨s, hs, rfl⟩ := Option.map_eq_some_iff.mp hx
      exact h.wakes_unblockByPid hs
    · obtain rfl := Option.some.inj hx
      refine ⟨.refl _, ?_⟩
      intro x hx hpid
      rw [h.wf.find_eq_some_iff.mpr ⟨hx, hpid⟩] at hf
      rw [Option.some.inj hf]
      simpa using hb

/-- The receivers of the messages that a tick moves are awake. -/
lemma Ok.wakes_checkFrom (h : a.Ok base r) {n i : Nat} {w : UInt32} {moved : List Nat}
    {x : List Nat × UInt32 × Kernel} (hx : checkFrom n i w moved a = some x) :
    ∃ new, x.1 = moved ++ new ∧ a.sched.Wakes x.2.2.sched ∧
      ∀ e ∈ new, x.2.2.sched.Awake (a.rx e) := by
  induction n generalizing i w moved a with
  | zero =>
    rw [checkFrom] at hx
    split_ifs at hx
    obtain rfl := Option.some.inj hx
    exact ⟨[], by simp, .refl _, by simp⟩
  | succ n ih =>
    rw [checkFrom] at hx
    split_ifs at hx
    · obtain rfl := Option.some.inj hx
      exact ⟨[], by simp, .refl _, by simp⟩
    cases hi : a.delayed[i]? with
    | none =>
      rw [hi] at hx
      exact ih h hx
    | some e =>
      rw [hi] at hx
      dsimp only at hx
      split_ifs at hx with hdue
      · obtain ⟨y, hy, hx⟩ := Option.bind_eq_some_iff.mp hx
        obtain ⟨he, -, -, hmv⟩ := deliver_moves h.sched hi (by simpa [isDue] using hdue) hy
        obtain ⟨new, hnew, hw, hawake⟩ := ih ((h.sweeps w).deliver hy).ok hx
        have hrx : y.2.2.2.rx = a.rx := by
          funext z
          rw [Kernel.rx, hmv.pool]
          rfl
        rw [deliver] at hy
        split_ifs at hy
        obtain ⟨z, hz, rfl⟩ := Option.map_eq_some_iff.mp hy
        obtain ⟨hw₁, hawake₁⟩ := wakes_wakeReceiver (a := a.move e i) h.sched hz
        refine ⟨e :: new, by simpa using hnew, hw₁.trans hw, ?_⟩
        intro e' he'
        rcases List.mem_cons.mp he' with rfl | he'
        · exact hw.awakePid hawake₁
        · rw [← hrx]
          exact hawake e' he'
      · exact ih h hx

lemma Ok.wakes_timer (h : a.Ok base r) {new : List Nat} (hy : a.call .timer = some (.moved new, b)) :
    a.sched.Wakes b.sched ∧ ∀ e ∈ new, b.sched.Awake (a.rx e) := by
  obtain ⟨x, hx, hy⟩ := Option.map_eq_some_iff.mp hy
  obtain ⟨⟨new', w, b'⟩, hb, rfl⟩ := Option.map_eq_some_iff.mp hx
  obtain ⟨hnew, rfl⟩ := Prod.mk.inj hy
  obtain rfl : new' = new := Reply.moved.inj hnew
  have hok := h.withTicks (a.ticks + 1)
  obtain ⟨new, hnew, hw, hawake⟩ := hok.wakes_checkFrom hb
  obtain rfl : new' = new := hnew
  dsimp only
  split_ifs
  · have hp := Wakes.procSwitch b'.sched
    exact ⟨hw.trans hp, fun e he => hp.awakePid (hawake e he)⟩
  · exact ⟨hw, hawake⟩

lemma Ok.wakes_uart (h : a.Ok base r) {c : UInt8} {code : Option UInt32}
    (hy : a.call (.uart c) = some (.sent code, b)) :
    a.sched.Wakes b.sched ∧ (code = some 0 → b.sched.Awake kcdPid) := by
  obtain ⟨x, hx, hy⟩ := Option.map_eq_some_iff.mp hy
  obtain ⟨hcode, rfl⟩ := Prod.mk.inj hy
  obtain rfl : x.1 = code := Reply.sent.inj hcode
  obtain rfl | ⟨q, y, z, hok, hz, rfl⟩ := h.uartHandler_cases hx
  · exact ⟨.refl _, nofun⟩
  · obtain ⟨hw, hawake⟩ := hok.wakes_sendMessage hz
    exact ⟨hw, fun hzero => hawake (Option.some.inj hzero)⟩

/-- A block that is returned wakes a process that waits for memory. -/
lemma Ok.wakes_release (h : a.Ok base r) {x : Nat} (hy : a.call (.release x) = some (.code 0, b))
    (hwait : ∃ p ∈ a.sched.live, a.sched.state p = .blockedMem) :
    ∃ p ∈ a.sched.live, a.sched.state p = .blockedMem ∧ (b.sched.state p).isBlocked = false := by
  obtain ⟨z, hz, hy⟩ := Option.map_eq_some_iff.mp hy
  obtain ⟨hcode, rfl⟩ := Prod.mk.inj hy
  rw [Kernel.releaseMemoryBlock] at hz
  dsimp only at hz
  split_ifs at hz with hzero
  · obtain ⟨s, hs, rfl⟩ := Option.map_eq_some_iff.mp hz
    exact (h.sched.wakes_unblockByType hs).2 hwait
  · obtain rfl := Option.some.inj hz
    exact absurd (Reply.code.inj hcode) hzero

/-- No process blocks with such an operation, and at most the running one ends. -/
theorem Ok.wakes (h : a.Ok base r) {op : Op} (hop : op.isWhole = true) {y : Reply × Kernel}
    (hy : a.call op = some y) :
    ∃ l, (l = a.sched.live ∨ op = .terminate ∧ l = a.sched.live.erase r) ∧
      Wakes { a.sched with live := l } y.2.sched := by
  cases op with
  | block t => cases hop
  | receive => cases hop
  | request => cases hop
  | terminate =>
    obtain ⟨s, hs, rfl⟩ := Option.map_eq_some_iff.mp hy
    exact ⟨_, .inr ⟨rfl, rfl⟩, h.sched.terminate_wakes hs⟩
  | releaseProcessor =>
    obtain rfl := Option.some.inj hy
    exact ⟨_, .inl rfl, .procSwitch _⟩
  | unblockByPid pid allow =>
    obtain ⟨s, hs, rfl⟩ := Option.map_eq_some_iff.mp hy
    exact ⟨_, .inl rfl, (h.sched.wakes_unblockByPid hs).1⟩
  | unblockByType t =>
    obtain ⟨s, hs, rfl⟩ := Option.map_eq_some_iff.mp hy
    exact ⟨_, .inl rfl, (h.sched.wakes_unblockByType hs).1⟩
  | setPriority pid v =>
    obtain ⟨x, hx, rfl⟩ := Option.map_eq_some_iff.mp hy
    exact ⟨_, .inl rfl, h.sched.wakes_setProcessPriority hx⟩
  | send pid e =>
    obtain ⟨x, hx, rfl⟩ := Option.map_eq_some_iff.mp hy
    exact ⟨_, .inl rfl, (h.wakes_sendMessage hx).1⟩
  | delayedSend pid e delay =>
    obtain ⟨x, hx, rfl⟩ := Option.map_eq_some_iff.mp hy
    rcases delayedSend_cases hx with ⟨c, -, rfl⟩ | ⟨-, b', hb', rfl⟩
    · exact ⟨_, .inl rfl, .refl _⟩
    · refine ⟨_, .inl rfl, ?_⟩
      rw [← (h.address hb').2]
      exact .refl _
  | release x =>
    obtain ⟨z, hz, rfl⟩ := Option.map_eq_some_iff.mp hy
    rw [Kernel.releaseMemoryBlock] at hz
    dsimp only at hz
    split_ifs at hz
    · obtain ⟨s, hs, rfl⟩ := Option.map_eq_some_iff.mp hz
      exact ⟨_, .inl rfl, (h.sched.wakes_unblockByType hs).1⟩
    · obtain rfl := Option.some.inj hz
      exact ⟨_, .inl rfl, .refl _⟩
  | store x v =>
    obtain rfl := Option.some.inj hy
    exact ⟨_, .inl rfl, .refl _⟩
  | timer =>
    obtain ⟨x, hx, rfl⟩ := Option.map_eq_some_iff.mp hy
    exact ⟨_, .inl rfl, (h.wakes_timer (Option.map_eq_some_iff.mpr ⟨x, hx, rfl⟩)).1⟩
  | uart c =>
    obtain ⟨x, hx, rfl⟩ := Option.map_eq_some_iff.mp hy
    exact ⟨_, .inl rfl, (h.wakes_uart (Option.map_eq_some_iff.mpr ⟨x, hx, rfl⟩)).1⟩

/-! ### Who stops waiting -/

/-- What makes a process that waits for `t` ready: a message to it, or the return of what it waits for. -/
def RousedBy (a : Kernel) (t : BlockType) (p : PcbPtr) : Op → Reply → Prop
  | .unblockByPid pid _, _ => a.sched.pid p = pid
  | .unblockByType t', _ => t.state = t'.state
  | .release _, .code c => c = 0 ∧ t = .mem
  | .send pid _, .code c => c = 0 ∧ a.sched.pid p = pid
  | .timer, .moved es => ∃ e ∈ es, a.rx e = a.sched.pid p
  | .uart _, .sent c => c = some 0 ∧ a.sched.pid p = kcdPid
  | _, _ => False

lemma isBlocked_state (t : BlockType) : t.state.isBlocked = true := by cases t <;> rfl

lemma Ok.rouses_sendMessage (h : a.Ok base r) {v : ProcessState} (hv : v.isBlocked = true) {pid : UInt32}
    {e : Nat} {y : UInt32 × Kernel} (hy : a.sendMessage pid e = some y) :
    Rouses v a.sched y.2.sched fun p => y.1 = 0 ∧ a.sched.pid p = pid := by
  rw [Kernel.sendMessage] at hy
  obtain ⟨x, hx, hy⟩ := Option.bind_eq_some_iff.mp hy
  rcases sendSection_cases hx with ⟨-, c, -, rfl⟩ | ⟨-, b, hb, rfl⟩
  · obtain rfl := Option.some.inj hy
    exact .refl v _ _
  · obtain ⟨-, hs⟩ := h.address hb
    obtain ⟨s, hs', hy⟩ := Option.bind_eq_some_iff.mp hy
    obtain rfl := Option.some.inj hy
    rw [hs] at hs'
    apply (h.sched.rouses_unblockByPid hv hs').mono
    intro p hp
    exact ⟨rfl, hp⟩

lemma rouses_wakeReceiver (h : a.sched.Steady r) {v : ProcessState} (hv : v.isBlocked = true) {pid w : UInt32}
    {x : UInt32 × Kernel} (hx : a.wakeReceiver pid w = some x) :
    Rouses v a.sched x.2.sched fun p => a.sched.pid p = pid := by
  rw [wakeReceiver] at hx
  cases hf : a.sched.find pid with
  | none =>
    rw [hf] at hx
    obtain rfl := Option.some.inj hx
    exact .refl v _ _
  | some p =>
    rw [hf] at hx
    dsimp only at hx
    split_ifs at hx
    · obtain ⟨s, hs, rfl⟩ := Option.map_eq_some_iff.mp hx
      exact h.rouses_unblockByPid hv hs
    · obtain rfl := Option.some.inj hx
      exact .refl v _ _

lemma Ok.rouses_checkFrom (h : a.Ok base r) {v : ProcessState} (hv : v.isBlocked = true) {n i : Nat} {w : UInt32}
    {moved : List Nat} {x : List Nat × UInt32 × Kernel} (hx : checkFrom n i w moved a = some x) :
    ∃ new, x.1 = moved ++ new ∧
      Rouses v a.sched x.2.2.sched fun p => ∃ e ∈ new, a.rx e = a.sched.pid p := by
  induction n generalizing i w moved a with
  | zero =>
    rw [checkFrom] at hx
    split_ifs at hx
    obtain rfl := Option.some.inj hx
    exact ⟨[], by simp, .refl v _ _⟩
  | succ n ih =>
    rw [checkFrom] at hx
    split_ifs at hx
    · obtain rfl := Option.some.inj hx
      exact ⟨[], by simp, .refl v _ _⟩
    cases hi : a.delayed[i]? with
    | none =>
      rw [hi] at hx
      exact ih h hx
    | some e =>
      rw [hi] at hx
      dsimp only at hx
      split_ifs at hx with hdue
      · obtain ⟨y, hy, hx⟩ := Option.bind_eq_some_iff.mp hx
        obtain ⟨he, -, -, hmv⟩ := deliver_moves h.sched hi (by simpa [isDue] using hdue) hy
        obtain ⟨new, hnew, hw⟩ := ih ((h.sweeps w).deliver hy).ok hx
        have hrx : y.2.2.2.rx = a.rx := by
          funext z
          rw [Kernel.rx, hmv.pool]
          rfl
        rw [deliver] at hy
        split_ifs at hy
        obtain ⟨z, hz, rfl⟩ := Option.map_eq_some_iff.mp hy
        have hw₁ := rouses_wakeReceiver (a := a.move e i) h.sched hv hz
        refine ⟨e :: new, by simpa using hnew, ?_⟩
        refine (hw₁.mono ?_).trans (hw.mono ?_)
        · intro p hp
          exact ⟨e, by simp, hp.symm⟩
        · rintro p ⟨e', he', hp⟩
          rw [hrx, hw₁.pid] at hp
          exact ⟨e', by simp [he'], hp⟩
      · exact ih h hx

lemma Ok.rouses_timer (h : a.Ok base r) {v : ProcessState} (hv : v.isBlocked = true) {x : List Nat × Kernel}
    (hx : a.timerIsr = some x) :
    Rouses v a.sched x.2.sched fun p => ∃ e ∈ x.1, a.rx e = a.sched.pid p := by
  obtain ⟨⟨new, w, b'⟩, hb, rfl⟩ := Option.map_eq_some_iff.mp hx
  have hok := h.withTicks (a.ticks + 1)
  obtain ⟨new', hnew, hw⟩ := hok.rouses_checkFrom hv hb
  obtain rfl : new = new' := hnew
  dsimp only
  split_ifs
  · exact hw.trans (.procSwitch hv _)
  · exact hw

lemma Ok.rouses_uart (h : a.Ok base r) {v : ProcessState} (hv : v.isBlocked = true) {c : UInt8}
    {x : Option UInt32 × Kernel} (hx : a.uartHandler c = some x) :
    Rouses v a.sched x.2.sched fun p => x.1 = some 0 ∧ a.sched.pid p = kcdPid := by
  obtain rfl | ⟨q, y, z, hok, hz, rfl⟩ := h.uartHandler_cases hx
  · exact .refl v _ _
  · apply (hok.rouses_sendMessage hv hz).mono
    rintro p ⟨hzero, hp⟩
    exact ⟨congrArg some hzero, hp⟩

/-- A process that waits goes on doing so, unless the operation is one of those that wake it. -/
theorem Ok.rouses (h : a.Ok base r) (t : BlockType) {op : Op} {reply : Reply} (hy : a.call op = some (reply, b)) :
    Rouses t.state a.sched b.sched fun p => a.RousedBy t p op reply := by
  have hv := isBlocked_state t
  cases op with
  | block t' =>
    obtain ⟨rfl, rfl⟩ := Prod.mk.inj (Option.some.inj hy)
    exact h.sched.rouses_block hv t'
  | receive =>
    obtain ⟨rfl, rfl⟩ := Prod.mk.inj (Option.some.inj hy)
    rcases receiveScan_cases a with ⟨-, he⟩ | ⟨i, e, -, -, -, he⟩
    · rw [he]
      exact h.sched.rouses_block hv .msg
    · rw [he]
      exact .refl _ _ _
  | request =>
    obtain ⟨rfl, rfl⟩ := Prod.mk.inj (Option.some.inj hy)
    rw [Spec.Kernel.requestMemoryBlock]
    cases a.pool.take a.sched.currentPid with
    | none => exact h.sched.rouses_block hv .mem
    | some x => exact .refl _ _ _
  | terminate =>
    obtain ⟨s, hs, hb⟩ := Option.map_eq_some_iff.mp hy
    obtain ⟨rfl, rfl⟩ := Prod.mk.inj hb
    exact h.sched.rouses_terminate hv hs
  | releaseProcessor =>
    obtain ⟨rfl, rfl⟩ := Prod.mk.inj (Option.some.inj hy)
    exact .procSwitch hv _
  | unblockByPid pid allow =>
    obtain ⟨s, hs, hb⟩ := Option.map_eq_some_iff.mp hy
    obtain ⟨rfl, rfl⟩ := Prod.mk.inj hb
    exact h.sched.rouses_unblockByPid hv hs
  | unblockByType t' =>
    obtain ⟨s, hs, hb⟩ := Option.map_eq_some_iff.mp hy
    obtain ⟨rfl, rfl⟩ := Prod.mk.inj hb
    exact h.sched.rouses_unblockByType hv hs
  | setPriority pid w =>
    obtain ⟨x, hx, hb⟩ := Option.map_eq_some_iff.mp hy
    obtain ⟨rfl, rfl⟩ := Prod.mk.inj hb
    exact h.sched.rouses_setProcessPriority hv hx
  | send pid e =>
    obtain ⟨x, hx, hb⟩ := Option.map_eq_some_iff.mp hy
    obtain ⟨rfl, rfl⟩ := Prod.mk.inj hb
    exact h.rouses_sendMessage hv hx
  | delayedSend pid e delay =>
    obtain ⟨x, hx, hb⟩ := Option.map_eq_some_iff.mp hy
    obtain ⟨rfl, rfl⟩ := Prod.mk.inj hb
    rcases delayedSend_cases hx with ⟨c, -, rfl⟩ | ⟨-, b', hb', rfl⟩
    · exact .refl _ _ _
    · change Rouses _ _ b'.sched _
      rw [(h.address hb').2]
      exact .refl _ _ _
  | release x =>
    obtain ⟨z, hz, hb⟩ := Option.map_eq_some_iff.mp hy
    obtain ⟨rfl, rfl⟩ := Prod.mk.inj hb
    rw [Kernel.releaseMemoryBlock] at hz
    dsimp only at hz
    split_ifs at hz with hzero
    · obtain ⟨s, hs, rfl⟩ := Option.map_eq_some_iff.mp hz
      apply (h.sched.rouses_unblockByType hv hs).mono
      intro p hp
      refine ⟨hzero, ?_⟩
      cases t with
      | mem => rfl
      | msg => cases hp
    · obtain rfl := Option.some.inj hz
      exact .refl _ _ _
  | store x w =>
    obtain ⟨rfl, rfl⟩ := Prod.mk.inj (Option.some.inj hy)
    exact .refl _ _ _
  | timer =>
    obtain ⟨x, hx, hb⟩ := Option.map_eq_some_iff.mp hy
    obtain ⟨rfl, rfl⟩ := Prod.mk.inj hb
    exact h.rouses_timer hv hx
  | uart c =>
    obtain ⟨x, hx, hb⟩ := Option.map_eq_some_iff.mp hy
    obtain ⟨rfl, rfl⟩ := Prod.mk.inj hb
    exact h.rouses_uart hv hx

end Spec.Kernel

end RtxKernel
