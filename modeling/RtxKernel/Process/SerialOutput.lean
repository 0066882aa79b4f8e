import RtxKernel.Process.SerialFlow

/-!
# The serial output is the messages, in order

The relation of `RtxKernel.Process.SerialFlow` is carried over to the code, and along every run.
-/

namespace RtxKernel

section Free

variable {base : Nat} {k : Kernel} {a : Spec.Kernel} {r : PcbPtr} {op : Op} {reply : Reply}

/-- What the others see to, in the abstract kernel as in the code -/
lemma KernelRep.serialFree (h : KernelRep k a) (hok : a.Ok base r) (hf : k.SerialFree op) :
    a.SerialFree op := by
  obtain ⟨hout, hsends⟩ := hf
  refine ⟨h.outside hok hout, ?_⟩
  rw [← h.pool.memory]
  rintro pid e (rfl | ⟨delay, rfl⟩)
  · exact hsends
  · exact hsends

lemma KernelRep.entered (h : KernelRep k a) : k.entered op reply = a.entered op reply := by
  have hrx : k.rx = a.rx := funext h.rx
  cases op with
  | send pid e =>
    cases reply with
    | code c => rw [Kernel.entered, Spec.Kernel.entered, h.pool.memory]
    | _ => rfl
  | timer =>
    cases reply with
    | moved es => rw [Kernel.entered, Spec.Kernel.entered, h.pool.memory, hrx]
    | _ => rfl
  | _ => rfl

end Free

namespace Serial

/-- The relation between the state of the system and the history of the messages -/
def Good (priority : Fin 6 → UInt8) (base : Nat) (s : Serial) : Prop :=
  ∃ a r, Orderly priority base s.kernel a r ∧ a.Flow s.crt s.uart s.output s.log

variable {priority : Fin 6 → UInt8} {base : Nat} {k₀ : Kernel} {s t : Serial} {x : Action}

lemma Good.start (hprio : ∀ i, priority i ≤ 4) (hboot : boot priority base = some k₀) :
    (start k₀).Good priority base := by
  obtain ⟨a, r, ho, hfresh⟩ := Orderly.boot hprio hboot
  refine ⟨a, r, ho, ?_, ?_, ?_, trivial, trivial, ?_⟩
  · exact hfresh.lives (uartPid, 0) (by simp [initBlocks])
  · simp [hfresh.delayed]
  · simp [hfresh.mailbox, hfresh.delayed]
  · simp [Serial.start, Spec.Kernel.uartHand, Spec.Kernel.characters, Spec.Kernel.mailTo,
      Spec.Kernel.crtRest, Spec.Kernel.texts, hfresh.mailbox]

/-- One step of the system -/
theorem Good.step (hbase : base ≠ 0) (h : s.Good priority base) (hx : Step s x t) :
    t.Good priority base := by
  obtain ⟨a, r, ho, hflow⟩ := h
  have hmem := ho.rep.pool.memory
  cases x with
  | call op =>
    rw [Step, Serial.step] at hx
    split_ifs at hx with hfree
    obtain ⟨⟨reply, k'⟩, hcall, rfl⟩ := Option.map_eq_some_iff.mp hx
    obtain ⟨b, r', hn⟩ := ho.step hfree.1.2.1 hcall
    refine ⟨b, r', hn.orderly, ?_⟩
    dsimp only
    rw [ho.rep.entered]
    exact hflow.free ho.ok ho.posted ho.mailOwned hn.permits hn.respects (ho.rep.serialFree ho.ok hfree)
      hn.call hn.effect
  | own =>
    rw [Step, Serial.step, ho.rep.currentPid, hmem] at hx
    split_ifs at hx with hcrt huart
    · obtain ⟨⟨reply, k'⟩, hcall, rfl⟩ := Option.map_eq_some_iff.mp hx
      obtain ⟨hp, hr⟩ := hflow.crt_proper ho.ok ho.mailOwned hcrt
      obtain ⟨b, r', hn⟩ := ho.step_of_permits hp hr hcall
      exact ⟨b, r', hn.orderly,
        hflow.crt_step hbase ho.ok ho.posted ho.mailOwned hcrt hn.call hn.effect⟩
    · cases hact : s.uart.act with
      | inl op =>
        rw [hact] at hx
        obtain ⟨⟨reply, k'⟩, hcall, rfl⟩ := Option.map_eq_some_iff.mp hx
        obtain ⟨hp, hr⟩ := hflow.uart_proper huart hact
        obtain ⟨b, r', hn⟩ := ho.step_of_permits hp hr hcall
        exact ⟨b, r', hn.orderly,
          hflow.uart_step ho.ok ho.posted ho.mailOwned huart hact hn.call hn.effect⟩
      | inr charOut =>
        rw [hact] at hx
        obtain rfl := Option.some.inj hx
        refine ⟨a, r, ho, ?_⟩
        have hstate : s.uart = .writing charOut := by
          cases hu : s.uart with
          | writing c =>
            rw [hu] at hact
            rw [Sum.inr.inj hact]
          | waiting => rw [hu] at hact; cases hact
          | received msg => rw [hu] at hact; cases hact
        rw [hstate] at hflow
        exact hflow.write

/-- What was written to the port is a prefix of the texts of the messages for the CRT process, in the order
in which they have entered the mailbox. -/
theorem serial_in_order {xs : List Action} (hprio : ∀ i, priority i ≤ 4) (hbase : base ≠ 0)
    (hboot : boot priority base = some k₀) (hrun : Run Step (start k₀) xs s) :
    s.output <+: s.log.flatten := by
  have hgood : s.Good priority base :=
    hrun.invariant (I := Good priority base) (.start hprio hboot) fun _ _ _ h hx => h.step hbase hx
  obtain ⟨a, r, -, hflow⟩ := hgood
  exact ⟨_, hflow.flow⟩

/-- The keyboard decoder sends the text `A` to the CRT process, and waits. -/
def printA : List Action :=
  [.call .request, .call (.store (msgField 4096) 0x41), .call (.send crtPid 4096), .call .receive] ++
    List.replicate 17 .own

/-- The text comes out at the port. -/
theorem serial_in_order_printA : ∃ k₀ s, boot (fun _ => 2) 4096 = some k₀ ∧
    Run Step (start k₀) printA s ∧ s.output = [0x41] ∧ s.output <+: s.log.flatten := by
  have hrun : ((boot (fun _ => 2) 4096).bind fun k => printA.foldlM step (start k)).map output =
      some [0x41] := by
    decide +kernel
  obtain ⟨s, hs, hout⟩ := Option.map_eq_some_iff.mp hrun
  obtain ⟨k₀, hboot, hs⟩ := Option.bind_eq_some_iff.mp hs
  have hsteps : Run Step (start k₀) printA s := Run.of_foldlM (fun _ _ _ h => h) hs
  exact ⟨k₀, s, hboot, hsteps, hout, serial_in_order (by decide) (by decide) hboot hsteps⟩

end Serial

end RtxKernel
