import RtxKernel.Interrupt.Masking
import RtxKernel.Interrupt.Processor

/-!
# Where the running process is not NULL

In every handler it is known of each place whether `running_process` may be NULL there: only behind
`running_process = NULL` in `process_bootstrap`, and in `proc_switch_handler` between `dequeue_process` and the test.
So an interrupt handler never finds it NULL if these places are masked (`running_not_null`). A process always ends
with interrupts enabled.
-/

namespace RtxKernel

namespace Processor

open Code

variable {m m' : Processor} {main p r : PcbPtr} {t : Trap} {i : Irq} {x : Instr} {n e s : ℕ} {k : List (Code Instr)}
  {f : Activation} {fs : List Activation} {o : Option PcbPtr} {a : Move} {as : List Move}

/-- Only a saved stack changes. -/
lemma save_eq (m : Processor) : ∃ saved, m.save = { m with saved } ∧
    ∀ p, saved p = m.saved p ∨ ∃ f fs, m.stack = f :: fs ∧ saved p = ⟨[down], f.saved⟩ :: fs := by
  rw [save]
  split
  · rename_i r f fs hr hfs
    refine ⟨_, rfl, ?_⟩
    intro p
    by_cases hp : p = r
    · subst hp
      exact .inr ⟨f, fs, hfs, Function.update_self ..⟩
    · exact .inl (Function.update_of_ne hp _ _)
  · exact ⟨m.saved, rfl, fun p => .inl rfl⟩

/-- What can happen next -/
inductive Moves (m : Processor) : Move → Processor → Prop
  | test {c : Code Instr} {k l : List (Code Instr)} {s : Option ℕ} {fs : List Activation} {b : Bool}
      (hs : m.stack = ⟨c :: k, s⟩ :: fs) (hl : c.expand b = some l) :
      Moves m (.test b) (m.withStack (⟨l ++ k, s⟩ :: fs))
  | rte {s : ℕ} {fs : List Activation} (hs : m.stack = ⟨[], some s⟩ :: fs) :
      Moves m .exec ((m.withStack fs).withMask s)
  | perform {x : Instr} {k : List (Code Instr)} {s : Option ℕ} {fs : List Activation} {m' : Processor}
      (hs : m.stack = ⟨act x :: k, s⟩ :: fs) (hx : (m.withStack (⟨k, s⟩ :: fs)).perform x = some m') :
      Moves m .exec m'
  | dequeue {k : List (Code Instr)} {s : Option ℕ} {fs : List Activation} (o : Option PcbPtr)
      (hs : m.stack = ⟨act .dequeue :: k, s⟩ :: fs) :
      Moves m (.dequeue o) ((m.withStack (⟨k, s⟩ :: fs)).withRunning o)
  | interrupt (i : Irq) (hi : m.cpu.mask < i.level) :
      Moves m (.interrupt i) ((m.push (isr i)).withMask i.level)

lemma Moves.of_step (h : m.Step a m') : Moves m a m' := by
  cases a with
  | test b =>
    rw [Step, step] at h
    split at h
    · obtain ⟨l, hl, rfl⟩ := Option.map_eq_some_iff.mp h
      exact .test ‹_› hl
    · cases h
  | exec =>
    rw [Step, step] at h
    split at h
    · obtain rfl := Option.some.inj h
      exact .rte ‹_›
    · exact .perform ‹_› h
    · cases h
  | dequeue o =>
    rw [Step, step] at h
    split at h
    · obtain rfl := Option.some.inj h
      exact .dequeue o ‹_›
    · cases h
  | interrupt i =>
    rw [Step, step] at h
    split_ifs at h with hi
    obtain rfl := Option.some.inj h
    exact .interrupt i hi

lemma next_of_stack {s : Option ℕ} (h : m.stack = ⟨act x :: k, s⟩ :: fs) : m.next = some x := by
  rw [next, h]

lemma exists_of_next (h : m.next = some x) : ∃ k s fs, m.stack = ⟨act x :: k, s⟩ :: fs := by
  rw [next] at h
  split at h
  · obtain rfl := Option.some.inj h
    exact ⟨_, _, _, ‹_›⟩
  · cases h

/-! ### Where it is not NULL -/

/-- What is known of `running_process` behind an action: with 0 it may be NULL, otherwise it is not. What is
undefined needs a process. -/
def known : Instr → ℕ → Option ℕ
  | .prim .up, n | .save, n => some n
  | .prim (.trap .processSwitch), _ | .orMain, _ => some 1
  | .dequeue, _ | .clear, _ => some 0
  | _, n => if n = 0 then none else some n

lemma eq_of_needs (h : (if n = 0 then none else some n) = some e) : n ≠ 0 ∧ n = e := by
  split_ifs at h with hz
  exact ⟨hz, Option.some.inj h⟩

lemma known_trap (ht : t ≠ .processSwitch) : known (.prim (.trap t)) n = if n = 0 then none else some n := by
  cases t with
  | processSwitch => exact absurd rfl ht
  | _ => rfl

/-- The code needs a process, and there is one behind it. -/
lemma after_handler (t : Trap) : (handler t).after known 1 = some 1 := by
  cases t <;> rfl

/-- `proc_switch_handler` does not need one. -/
lemma after_procSwitchHandler (n : ℕ) : (handler .processSwitch).after known n = some 1 := rfl

lemma after_isr (i : Irq) : (isr i).after known 1 = some 1 := by
  cases i <;> rfl

lemma after_processBootstrap : afterAll known [down, processBootstrap] 1 = some 1 := rfl

/-- Something is known, with which the code can be entered, and there is a process behind it. -/
def Ends (k : List (Code Instr)) : Prop := ∃ n, afterAll known k n = some 1

/-- What is known in the innermost handler of a stack -/
def Settled (o : Option PcbPtr) : List Activation → Prop
  | [] => True
  | f :: fs => (∃ n, afterAll known f.code n = some 1 ∧ (n ≠ 0 → o ≠ none)) ∧ ∀ f' ∈ fs, Ends f'.code

/-- With a process each handler can go on. -/
lemma Settled.of_ne_none (ho : o ≠ none) (h : ∀ f ∈ fs, Ends f.code) : Settled o fs := by
  cases fs with
  | nil => trivial
  | cons f fs =>
    obtain ⟨n, hn⟩ := h f List.mem_cons_self
    exact ⟨⟨n, hn, fun _ => ho⟩, fun f' hf' => h f' (List.mem_cons_of_mem f hf')⟩

lemma Settled.forall_ends (h : Settled o fs) : ∀ f ∈ fs, Ends f.code := by
  cases fs with
  | nil => simp
  | cons f fs =>
    obtain ⟨⟨n, hn, -⟩, hfs⟩ := h
    intro f' hf'
    rcases List.mem_cons.mp hf' with rfl | hf'
    · exact ⟨n, hn⟩
    · exact hfs f' hf'

/-- `running_process` is NULL only where no interrupt can be taken and where the code does not need a process. -/
structure Known (m : Processor) : Prop where
  status : ∃ n : ℕ, m.cpu.atomicStatus = n
  quiet : m.runningProcess = none → m.Quiet
  stack : Settled m.runningProcess m.stack
  saved : ∀ p, ∀ f ∈ m.saved p, Ends f.code

namespace Known

lemma start (main : PcbPtr) : Known (start main) where
  status := ⟨0, rfl⟩
  quiet h := by cases h
  stack := by
    refine ⟨⟨1, rfl, fun _ => Option.some_ne_none main⟩, ?_⟩
    intro f hf
    cases hf
  saved := by
    intro p f hf
    obtain rfl := List.mem_singleton.mp hf
    exact ⟨1, after_processBootstrap⟩

lemma withStack (h : Known m) (hfs : Settled m.runningProcess fs) : Known (m.withStack fs) :=
  ⟨h.status, h.quiet, hfs, h.saved⟩

/-- With a process the mask may be any. -/
lemma withMask (h : Known m) (hr : m.runningProcess ≠ none) (s : ℕ) : Known (m.withMask s) :=
  ⟨h.status, fun hn => absurd hn hr, h.stack, h.saved⟩

lemma atomicUp (h : Known m) : Known { m with cpu := m.cpu.atomicUp } := by
  obtain ⟨n, hn⟩ := h.status
  have hcpu : m.cpu.atomicUp = ⟨(n + 1 : ℕ), if n = 0 then 7 else m.cpu.mask⟩ := by
    rw [← Flow.atomicUp_eq, ← hn]
  refine ⟨⟨n + 1, by rw [hcpu]⟩, ?_, h.stack, h.saved⟩
  intro hr i
  have hlevel := h.quiet hr i
  have hle := Flow.Irq.level_le i
  rw [hcpu]
  dsimp only
  split_ifs
  · omega
  · exact hlevel

lemma atomicDown (h : Known m) (hr : m.runningProcess ≠ none) : Known { m with cpu := m.cpu.atomicDown } := by
  refine ⟨?_, fun hn => absurd hn hr, h.stack, h.saved⟩
  obtain ⟨n, hn⟩ := h.status
  have hcpu : m.cpu = ⟨n, m.cpu.mask⟩ := by rw [← hn]
  cases n with
  | zero =>
    refine ⟨0, ?_⟩
    rw [hcpu]
    rfl
  | succ n =>
    refine ⟨n, ?_⟩
    rw [hcpu, Flow.atomicDown_eq]

/-- `running_process` is written. -/
lemma withRunning (h : Known m) (ho : o = none → m.Quiet) (hfs : Settled o fs) :
    Known ((m.withStack fs).withRunning o) :=
  ⟨h.status, ho, hfs, h.saved⟩

/-- A handler is entered with what it needs. -/
lemma push (h : Known m) {c : Code Instr} (hc : c.after known n = some 1) (hr : n ≠ 0 → m.runningProcess ≠ none)
    (hfs : ∀ f ∈ fs, Ends f.code) : Known (m.withStack (⟨[c], some m.cpu.mask⟩ :: fs)) := by
  refine h.withStack ⟨⟨n, ?_, hr⟩, hfs⟩
  rwa [afterAll_cons, bind_afterAll_nil]

lemma save (h : Known m) : Known m.save := by
  obtain ⟨saved, hsave, hsaved⟩ := m.save_eq
  rw [hsave]
  refine ⟨h.status, h.quiet, h.stack, ?_⟩
  intro p f hf
  rcases hsaved p with hp | ⟨f', fs, hstack, hp⟩
  · exact h.saved p f (hp ▸ hf)
  · have hall := h.stack.forall_ends
    rw [hstack] at hall
    change f ∈ saved p at hf
    rw [hp] at hf
    rcases List.mem_cons.mp hf with rfl | hf
    · exact ⟨1, rfl⟩
    · exact hall f (List.mem_cons_of_mem f' hf)

/-- An instruction is executed. -/
lemma perform (h : Known m) {s : Option ℕ} (hs : m.stack = ⟨act x :: k, s⟩ :: fs)
    (hx : (m.withStack (⟨k, s⟩ :: fs)).perform x = some m') (hclear : x = .clear → m.Quiet) : Known m' := by
  have hstack := h.stack
  rw [hs] at hstack
  obtain ⟨⟨n, hcode, hr⟩, hfs⟩ := hstack
  obtain ⟨e, he, hn⟩ := afterAll_act.mp hcode
  -- the rest of the code, with what is known behind `x`
  have hrest : (e ≠ 0 → m.runningProcess ≠ none) → Known (m.withStack (⟨k, s⟩ :: fs)) :=
    fun hne => h.withStack ⟨⟨e, hn, hne⟩, hfs⟩
  cases x with
  | prim x =>
    cases x with
    | up =>
      obtain rfl := Option.some.inj hx
      obtain rfl := Option.some.inj he
      exact (hrest hr).atomicUp
    | down =>
      obtain rfl := Option.some.inj hx
      obtain ⟨hz, rfl⟩ := eq_of_needs he
      exact (hrest hr).atomicDown (hr hz)
    | trap t =>
      obtain rfl := Option.some.inj hx
      have hends : ∀ f ∈ ⟨k, s⟩ :: fs, Ends f.code := List.forall_mem_cons.mpr ⟨⟨e, hn⟩, hfs⟩
      by_cases ht : t = .processSwitch
      · subst ht
        exact h.push (after_procSwitchHandler n) hr hends
      · rw [known_trap ht] at he
        obtain ⟨hz, -⟩ := eq_of_needs he
        exact h.push (after_handler t) (fun _ => hr hz) hends
    | enter =>
      obtain rfl := Option.some.inj hx
      obtain ⟨hz, rfl⟩ := eq_of_needs he
      exact (hrest hr).withMask (hr hz) 0
    | switch =>
      obtain ⟨r, hrun, rfl⟩ := Option.map_eq_some_iff.mp hx
      obtain ⟨hz, rfl⟩ := eq_of_needs he
      exact h.withStack (.of_ne_none (hr hz) (h.saved r))
  | compare =>
    obtain rfl := Option.some.inj hx
    obtain ⟨-, rfl⟩ := eq_of_needs he
    exact hrest hr
  | save =>
    obtain rfl := Option.some.inj hx
    obtain rfl := Option.some.inj he
    exact (hrest hr).save
  | dequeue => cases hx
  | orMain =>
    obtain rfl := Option.some.inj hx
    have hne : some (m.runningProcess.getD m.mainProcess) ≠ none := Option.some_ne_none _
    exact h.withRunning (fun hnone => absurd hnone hne) ⟨⟨e, hn, fun _ => hne⟩, hfs⟩
  | clear =>
    obtain rfl := Option.some.inj hx
    obtain rfl := Option.some.inj he
    exact h.withRunning (fun _ => hclear rfl) ⟨⟨0, hn, fun hne => absurd rfl hne⟩, hfs⟩

theorem step (h : Known m) (hs : m.Step a m') (hmasked : m.Masked a) : Known m' := by
  have hstack := h.stack
  cases Moves.of_step hs with
  | test hfs hl =>
    rw [hfs] at hstack
    obtain ⟨⟨n, hn, hr⟩, hrest⟩ := hstack
    exact h.withStack ⟨⟨n, afterAll_expand hl hn, hr⟩, hrest⟩
  | rte hfs =>
    rw [hfs] at hstack
    obtain ⟨⟨n, hn, hr⟩, hrest⟩ := hstack
    obtain rfl : n = 1 := Option.some.inj hn
    have hne := hr Nat.one_ne_zero
    exact (h.withStack (.of_ne_none hne hrest)).withMask hne _
  | perform hfs hx =>
    apply h.perform hfs hx
    rintro rfl
    exact hmasked (.inl ⟨rfl, next_of_stack hfs⟩)
  | dequeue o hfs =>
    rw [hfs] at hstack
    obtain ⟨⟨n, hn, hr⟩, hrest⟩ := hstack
    obtain ⟨e, he, hn⟩ := afterAll_act.mp hn
    obtain rfl := Option.some.inj he
    apply h.withRunning
    · rintro rfl
      exact hmasked (.inr rfl)
    · exact ⟨⟨0, hn, fun hne => absurd rfl hne⟩, hrest⟩
  | interrupt i hi =>
    have hne : m.runningProcess ≠ none := by
      intro hnone
      exact absurd hi (Nat.not_lt_of_le (h.quiet hnone i))
    exact (h.push (after_isr i) (fun _ => hne) hstack.forall_ends).withMask hne _

theorem safe (h : Known m) : m.Safe := by
  constructor
  · intro i hi hnone
    exact absurd hi (Nat.not_lt_of_le (h.quiet hnone i))
  · intro hnext
    obtain ⟨k, s, fs, hfs⟩ := exists_of_next hnext
    have hstack := h.stack
    rw [hfs] at hstack
    obtain ⟨⟨n, hn, hr⟩, -⟩ := hstack
    cases n with
    | zero => cases hn
    | succ n => exact hr (Nat.succ_ne_zero n)

end Known

/-! ### The mask of a process -/

/-- What a process does itself. With 0 it has not been entered, and otherwise its mask is 0. -/
def entered : Instr → ℕ → Option ℕ
  | .prim .down, n => if n = 0 then some 0 else none
  | .prim .enter, _ => some 1
  | .prim (.trap _), n | .compare, n | .clear, n => if n = 0 then none else some n
  | _, _ => none

/-- A process ends itself. -/
def isHandler : Instr → Bool
  | .clear => false
  | _ => true

lemma handler_all (t : Trap) : (handler t).all isHandler = true := by
  cases t <;> rfl

lemma isr_all (i : Irq) : (isr i).all isHandler = true := by
  cases i <;> rfl

/-- A stack on which the process is resumed with the mask 0, when the current one is `s`. -/
inductive Rooted : List Activation → ℕ → Prop
  | process {k : List (Code Instr)} {n e s : ℕ} (hk : afterAll entered k n = some e) (hs : n ≠ 0 → s = 0) :
      Rooted [⟨k, none⟩] s
  | handler {k : List (Code Instr)} {fs : List Activation} {s s' : ℕ} (hk : ∀ c ∈ k, c.all isHandler = true)
      (hfs : Rooted fs s') : Rooted (⟨k, some s'⟩ :: fs) s

/-- All processes are resumed with the mask 0. -/
structure Resumes (m : Processor) : Prop where
  stack : Rooted m.stack m.cpu.mask
  saved : ∀ p s, Rooted (m.saved p) s

namespace Resumes

lemma start (main : PcbPtr) : Resumes (start main) where
  stack := .process (n := 1) rfl fun _ => rfl
  saved _ _ := .process (n := 0) rfl fun hne => absurd rfl hne

lemma withStack (h : Resumes m) (hfs : Rooted fs m.cpu.mask) : Resumes (m.withStack fs) :=
  ⟨hfs, h.saved⟩

/-- A trap or an interrupt restores the mask when it returns. -/
lemma push (h : Resumes m) {c : Code Instr} (hc : c.all isHandler = true) (hfs : Rooted fs m.cpu.mask) :
    Resumes (m.withStack (⟨[c], some m.cpu.mask⟩ :: fs)) := by
  apply h.withStack
  refine .handler ?_ hfs
  simpa using hc

lemma save (h : Resumes m) {s : Option ℕ} (hs : m.stack = ⟨k, s⟩ :: fs)
    (hroot : ∀ s', Rooted (⟨[down], s⟩ :: fs) s') : Resumes m.save := by
  obtain ⟨saved, hsave, hsaved⟩ := m.save_eq
  rw [hsave]
  refine ⟨h.stack, ?_⟩
  intro p s'
  change Rooted (saved p) s'
  rcases hsaved p with hp | ⟨f, fs', hstack, hp⟩
  · rw [hp]
    exact h.saved p s'
  · obtain ⟨rfl, rfl⟩ := List.cons.inj (hstack.symm.trans hs)
    rw [hp]
    exact hroot s'

/-- An instruction of a process -/
lemma perform_process (h : Resumes m) (he : entered x n = some e) (hk : (afterAll entered k e).isSome = true)
    (hmask : n ≠ 0 → m.cpu.mask = 0) (hx : (m.withStack [⟨k, none⟩]).perform x = some m') : Resumes m' := by
  obtain ⟨e', hk⟩ := Option.isSome_iff_exists.mp hk
  have hkeep : (entered x n = if n = 0 then none else some n) → Rooted [⟨k, none⟩] m.cpu.mask := by
    intro hkeep
    rw [hkeep] at he
    obtain ⟨-, rfl⟩ := eq_of_needs he
    exact .process hk hmask
  cases x with
  | prim x =>
    cases x with
    | up => cases he
    | down =>
      obtain rfl := Option.some.inj hx
      refine ⟨.process hk ?_, h.saved⟩
      rw [entered] at he
      split_ifs at he
      obtain rfl := Option.some.inj he
      exact fun hne => absurd rfl hne
    | trap t =>
      obtain rfl := Option.some.inj hx
      exact h.push (handler_all t) (hkeep rfl)
    | enter =>
      obtain rfl := Option.some.inj hx
      exact ⟨.process hk fun _ => rfl, h.saved⟩
    | switch => cases he
  | compare =>
    obtain rfl := Option.some.inj hx
    exact h.withStack (hkeep rfl)
  | clear =>
    obtain rfl := Option.some.inj hx
    exact ⟨hkeep rfl, h.saved⟩
  | _ => cases he

/-- An instruction of a handler -/
lemma perform_handler (h : Resumes m) (hhandler : isHandler x = true)
    (hroot : ∀ s', Rooted (⟨k, some s⟩ :: fs) s') (hdown : ∀ s', Rooted (⟨[down], some s⟩ :: fs) s')
    (hx : (m.withStack (⟨k, some s⟩ :: fs)).perform x = some m') : Resumes m' := by
  have hrest := h.withStack (hroot _)
  cases x with
  | prim x =>
    cases x with
    | trap t =>
      obtain rfl := Option.some.inj hx
      exact h.push (handler_all t) (hroot _)
    | switch =>
      obtain ⟨r, -, rfl⟩ := Option.map_eq_some_iff.mp hx
      exact ⟨h.saved r _, h.saved⟩
    | _ =>
      obtain rfl := Option.some.inj hx
      exact ⟨hroot _, h.saved⟩
  | compare =>
    obtain rfl := Option.some.inj hx
    exact hrest
  | save =>
    obtain rfl := Option.some.inj hx
    exact hrest.save rfl hdown
  | dequeue => cases hx
  | orMain =>
    obtain rfl := Option.some.inj hx
    exact ⟨hroot _, h.saved⟩
  | clear => cases hhandler

theorem step (h : Resumes m) (hs : m.Step a m') : Resumes m' := by
  have hstack := h.stack
  cases Moves.of_step hs with
  | test hfs hl =>
    rw [hfs] at hstack
    apply h.withStack
    cases hstack with
    | process hk hmask => exact .process (afterAll_expand hl hk) hmask
    | handler hk hroot =>
      apply Rooted.handler _ hroot
      intro c hc
      rcases List.mem_append.mp hc with hc | hc
      · exact all_expand hl (hk _ List.mem_cons_self) c hc
      · exact hk c (List.mem_cons_of_mem _ hc)
  | rte hfs =>
    rw [hfs] at hstack
    cases hstack with
    | handler hk hroot => exact ⟨hroot, h.saved⟩
  | perform hfs hx =>
    rw [hfs] at hstack
    cases hstack with
    | process hk hmask =>
      obtain ⟨e, he, hk⟩ := afterAll_act.mp hk
      exact h.perform_process he (Option.isSome_of_eq_some hk) hmask hx
    | handler hk hroot =>
      refine h.perform_handler (hk _ List.mem_cons_self) (fun s' => .handler ?_ hroot) (fun s' => .handler ?_ hroot) hx
      · exact fun c hc => hk c (List.mem_cons_of_mem _ hc)
      · intro c hc
        rw [List.mem_singleton.mp hc]
        rfl
  | dequeue o hfs =>
    rw [hfs] at hstack
    cases hstack with
    | process hk hmask =>
      obtain ⟨e, he, -⟩ := afterAll_act.mp hk
      cases he
    | handler hk hroot => exact ⟨.handler (fun c hc => hk c (List.mem_cons_of_mem _ hc)) hroot, h.saved⟩
  | interrupt i hi =>
    have hpush := h.push (isr_all i) hstack
    refine ⟨?_, h.saved⟩
    cases hpush.stack with
    | handler hk hroot => exact .handler hk hroot

/-- A process ends with the mask 0. -/
lemma mask_of_clear (h : Resumes m) (hnext : m.next = some .clear) : m.cpu.mask = 0 := by
  obtain ⟨k, s, fs, hfs⟩ := exists_of_next hnext
  have hstack := h.stack
  rw [hfs] at hstack
  cases hstack with
  | @process k n e s hk hmask =>
    apply hmask
    rintro rfl
    cases hk
  | handler hk hroot => cases hk _ List.mem_cons_self

end Resumes

/-! ### Runs -/

/-- Where `running_process` is set to NULL, the mask stays. -/
lemma cleared (hs : m.Step a m') (ha : (a = .exec ∧ m.next = some .clear) ∨ a = .dequeue none) :
    m'.runningProcess = none ∧ m'.cpu = m.cpu := by
  rcases ha with ⟨rfl, hnext⟩ | rfl
  · obtain ⟨k, s, fs, hfs⟩ := exists_of_next hnext
    rw [Step, step, hfs] at hs
    obtain rfl := Option.some.inj hs
    exact ⟨rfl, rfl⟩
  · cases Moves.of_step hs
    exact ⟨rfl, rfl⟩

lemma masked_of_safe (hs : m.Step a m') (hsafe : m'.Safe) : m.Masked a := by
  intro ha i
  obtain ⟨hrunning, hcpu⟩ := cleared hs ha
  rw [← hcpu]
  exact Nat.le_of_not_lt fun hi => hsafe.1 i hi hrunning

lemma invariant (h : Run StepMasked (start main) as m) : Known m ∧ Resumes m := by
  refine h.invariant (I := fun m => Known m ∧ Resumes m) ⟨.start main, .start main⟩ ?_
  rintro m a m' ⟨hknown, hresumes⟩ ⟨hs, hmasked⟩
  exact ⟨hknown.step hs hmasked, hresumes.step hs⟩

/-- As long as `running_process` is set to NULL only where no interrupt can be taken, it is not NULL where an interrupt
can be taken or where it is dereferenced. The next step keeps this only if it is such a step, and the end of a process
is none. -/
theorem running_not_null (h : Run StepMasked (start main) as m) :
    m.Safe ∧ (∀ a m', m.Step a m' → (m'.Safe ↔ m.Masked a)) ∧ (m.next = some .clear → m.cpu.mask = 0) := by
  obtain ⟨hknown, hresumes⟩ := invariant h
  refine ⟨hknown.safe, ?_, hresumes.mask_of_clear⟩
  intro a m' hs
  constructor
  · exact masked_of_safe hs
  · intro hmasked
    exact (hknown.step hs hmasked).safe

/-- `main` starts the process 4, which calls `receive_message` and is blocked; then the process 1 is started. -/
def startMoves : List Move :=
  [.exec, .test true, .exec, .test true, .exec, .test true, .dequeue (some 4), .test true, .exec, .test true, .exec,
    .exec, .test true, .exec, .test true, .test true, .test false, .test false, .test false, .test false,
    .test true, .exec, .test true, .exec, .test false, .test true, .exec, .test true, .exec, .exec, .exec,
    .test false, .test false, .test true, .test true, .exec, .exec, .exec, .exec, .test true, .exec, .test true,
    .exec, .test true, .dequeue (some 1), .test true, .exec, .test true, .exec, .exec, .test true, .exec,
    .test true]

/-- The UART handler sends a message, whose receiver is blocked. -/
def keyMoves : List Move :=
  [.interrupt .uart, .test true, .exec, .test false, .test true, .exec, .test true, .exec, .test true, .test false,
    .exec, .exec, .exec, .exec, .test true, .exec, .test true, .exec, .test false, .test false, .test true, .exec,
    .test true, .exec, .exec, .exec, .test false, .test false, .test true]

/-- The running process calls `delayed_send`, and ends. -/
def endMoves : List Move :=
  [.test true, .test false, .test false, .test false, .test false, .test false, .test true, .exec, .test true,
    .exec, .test false, .test false, .exec, .exec, .test false, .test true, .exec]

/-- A delayed message is due, whose receiver is blocked. -/
def dueMoves : List Move :=
  [.interrupt .timer, .test true, .test true, .test true, .test true, .test true, .exec, .exec, .exec, .test false,
    .test false, .test true]

/-- A key is pressed while the process 1 runs. -/
theorem running_not_null_uart : ∃ m, Run StepMasked (start 15) (startMoves ++ keyMoves) m ∧
    m.next = some .compare ∧ m.runningProcess ≠ none := by
  obtain ⟨m, hrun, hcheck⟩ := Run.exists_allowed step Masked (start 15) (startMoves ++ keyMoves)
    (fun m => m.next = some .compare) (by decide +kernel)
  have hnext : m.next = some .compare := of_decide_eq_true hcheck
  exact ⟨m, hrun, hnext, (running_not_null hrun).1.2 hnext⟩

/-- The timer interrupts a process that has ended, before it has released the processor. -/
theorem running_null : ¬ ∀ main as m, Run Step (start main) as m →
    (∀ i m', m.Step (.interrupt i) m' → m.runningProcess ≠ none) ∧
      (m.next = some .compare → m.runningProcess ≠ none) := by
  intro hall
  obtain ⟨m, hrun, hcheck⟩ := Run.exists_allowed step (fun _ _ => True) (start 15)
    (startMoves ++ endMoves ++ dueMoves) (fun m => m.next = some .compare ∧ m.runningProcess = none) (by decide +kernel)
  obtain ⟨hnext, hnull⟩ := of_decide_eq_true hcheck
  exact (hall 15 _ m (hrun.mono fun _ _ _ hs => hs.1)).2 hnext hnull

end Processor

end RtxKernel
