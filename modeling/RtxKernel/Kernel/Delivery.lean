import RtxKernel.Kernel.Ledger

/-!
# Delivery of messages

Every message is delivered once, and each process receives its messages in the order in which they were
put into the mailbox (`mail_delivered`).
-/

namespace RtxKernel

variable {priority : Fin 6 → UInt8} {base : Nat} {k₀ k k' : Kernel} {a : Spec.Kernel} {r : PcbPtr}
  {es : List Event} {e : Event} {pending : List Message}

lemma KernelRep.respects_iff (h : KernelRep k a) (hok : a.Ok base r) (op : Op) :
    k.Respects op ↔ a.Respects op := by
  cases op with
  | release x => simp only [Kernel.Respects, Spec.Kernel.Respects, h.inMailbox_iff hok]
  | store x v => simp only [Kernel.Respects, Spec.Kernel.Respects, h.inMailbox_iff hok]
  | _ => exact Iff.rfl

/-- What holds of every state that is reached by a disciplined history. -/
structure Delivers (priority : Fin 6 → UInt8) (base : Nat) (es : List Event) (k : Kernel)
    (a : Spec.Kernel) (r : PcbPtr) (pending : List Message) : Prop
    extends Safe priority base k a r where
  keeps : a.Keeps (Ledger.of es) pending

namespace Delivers

lemma step (h : Delivers priority base es k a r pending)
    (hs : k.StepIf Kernel.Disciplined e k') :
    ∃ b r' pending', Delivers priority base (es ++ [e]) k' b r' pending' := by
  obtain ⟨hcaller, ⟨hp, hr, htype⟩, hcall⟩ := hs
  obtain ⟨b, r', hp', hy, hs', -⟩ := h.toSafe.step ⟨hcaller, hp, hcall⟩
  have hr' := (h.rep.respects_iff h.ok e.op).mp hr
  obtain ⟨pending', hk⟩ := h.keeps.step h.posted h.ok hp' hr' htype (h.ok.effect hy)
  refine ⟨b, r', pending', hs', ?_⟩
  rw [h.rep.currentPid] at hcaller
  rw [Ledger.of_snoc]
  rwa [← hcaller] at hk

lemma of_run (hprio : ∀ i, priority i ≤ 4) (hb : boot priority base = some k₀)
    (h : Run (Kernel.StepIf Kernel.Disciplined) k₀ es k) :
    ∃ a r pending, Delivers priority base es k a r pending := by
  apply h.history (I := fun es k => ∃ a r pending, Delivers priority base es k a r pending)
  · obtain ⟨a, r, hs, hfresh⟩ := Safe.boot hprio hb
    exact ⟨a, r, [], hs, .empty hfresh.mailbox hfresh.delayed hfresh.ticks⟩
  · rintro es k e k' ⟨a, r, pending, h⟩ hs
    exact h.step hs

lemma mailbox_filter (h : Delivers priority base es k a r pending) (p : UInt32) :
    (pending.filter (·.receiver = p)).map Message.receipt
      = (a.mailbox.filter fun x => k.rx x = p).map fun x => ⟨x, k.tx x, p⟩ := by
  have hheader : ∀ m ∈ pending, k.rx m.envelope = m.receiver ∧ k.tx m.envelope = m.sender := by
    intro m hm
    rw [h.rep.rx, h.rep.tx]
    exact h.keeps.header m (by simp [hm])
  rw [h.keeps.mailbox, List.filter_map, List.map_map]
  have hfilter : pending.filter ((fun x => decide (k.rx x = p)) ∘ Message.envelope)
      = pending.filter (·.receiver = p) := by
    apply List.filter_congr
    intro m hm
    rw [Function.comp_apply, (hheader m hm).1]
  rw [hfilter]
  apply List.map_congr_left
  intro m hm
  obtain ⟨hm, hp⟩ := List.mem_filter.mp hm
  rw [Function.comp_apply, (hheader m hm).2, Message.receipt, of_decide_eq_true hp]

end Delivers

/-- The mailboxes are packed and hold no envelope twice, a free slot is found whenever one is needed, and
what was posted to a process is what it has received, followed by what is in the mailbox for it. -/
theorem mail_delivered (hprio : ∀ i, priority i ≤ 4) (hboot : boot priority base = some k₀)
    (h : Run (Kernel.StepIf Kernel.Disciplined) k₀ es k) :
    ∃ mailbox delayed : List Nat, Packed k.mailbox mailbox ∧ Packed k.delayedMailbox delayed ∧
      mailbox.length ≤ memBlockCount ∧ delayed.length ≤ memBlockCount ∧
      (mailbox ++ delayed).Nodup ∧
      (∀ e, k.IsUsed e → ¬ k.InMailbox e → freeSlot k.mailbox memBlockCount < memBlockCount ∧
        freeSlot k.delayedMailbox memBlockCount < memBlockCount) ∧
      (delayed ≠ [] → freeSlot k.mailbox memBlockCount < memBlockCount) ∧
      (∃ moved k', k.call .timer = some (.moved moved, k')) ∧
      ∀ p, (Ledger.of es).postedTo p = (Ledger.of es).receivedBy p ++
        (mailbox.filter fun x => k.rx x = p).map fun x => ⟨x, k.tx x, p⟩ := by
  obtain ⟨a, r, pending, hd⟩ := Delivers.of_run hprio hboot h
  have hmail := hd.rep.mailbox.freeSlot_eq hd.ok.mailbox_le
  have hdelayed := hd.rep.delayed.freeSlot_eq hd.ok.delayed_le
  have hlen := hd.posted.length_le
  refine ⟨a.mailbox, a.delayed, hd.rep.mailbox, hd.rep.delayed, hd.ok.mailbox_le, hd.ok.delayed_le,
    hd.posted.nodup, ?_, ?_, ?_, ?_⟩
  · intro e hused hnot
    obtain ⟨c, hc, rfl⟩ := (hd.rep.isUsed_iff hd.ok).mp hused
    rw [hd.rep.inMailbox_iff hd.ok] at hnot
    have hcl := hd.ok.pool.lt_of_mem (q := .usedBlocks) hc
    rw [hd.ok.pool.start_eq c hcl] at hnot
    have hlt := hd.posted.length_lt hcl hnot
    rw [hmail, hdelayed]
    omega
  · intro hne
    have hpos := List.length_pos_iff.mpr hne
    rw [hmail]
    omega
  · obtain ⟨reply, k', hk'⟩ := hd.call_isSome .timer trivial
    obtain ⟨x, -, hx⟩ := Option.bind_eq_some_iff.mp hk'
    obtain ⟨rfl, rfl⟩ := Prod.mk.inj (Option.some.inj hx)
    exact ⟨_, _, hk'⟩
  · intro p
    rw [hd.keeps.fifo p, hd.mailbox_filter p]

/-- Two messages to one process, one of them delayed; both are received. -/
theorem mail_delivered_twice : ∃ k₀ es k, boot (fun _ => 2) 4096 = some k₀ ∧
    Run (Kernel.StepIf Kernel.Disciplined) k₀ es k ∧
    (Ledger.of es).receivedBy 10 = [⟨4096, 9, 10⟩, ⟨4224, 9, 10⟩] ∧
    ∃ mailbox delayed : List Nat, Packed k.mailbox mailbox ∧ Packed k.delayedMailbox delayed ∧
      mailbox.length ≤ memBlockCount ∧ delayed.length ≤ memBlockCount ∧
      (mailbox ++ delayed).Nodup ∧
      (∀ e, k.IsUsed e → ¬ k.InMailbox e → freeSlot k.mailbox memBlockCount < memBlockCount ∧
        freeSlot k.delayedMailbox memBlockCount < memBlockCount) ∧
      (delayed ≠ [] → freeSlot k.mailbox memBlockCount < memBlockCount) ∧
      (∃ moved k', k.call .timer = some (.moved moved, k')) ∧
      ∀ p, (Ledger.of es).postedTo p = (Ledger.of es).receivedBy p ++
        (mailbox.filter fun x => k.rx x = p).map fun x => ⟨x, k.tx x, p⟩ := by
  obtain ⟨k₀, es, k, hboot, hrun, -, hrec⟩ := exists_run_of_boot Kernel.Disciplined (fun _ => 2) 4096
    [.receive, .receive, .receive, .receive, .receive, .request, .request,
      .delayedSend 10 4224 1, .send 10 4096, .receive, .timer, .receive]
    (fun es _ => (Ledger.of es).receivedBy 10 = [⟨4096, 9, 10⟩, ⟨4224, 9, 10⟩]) (by decide +kernel)
  exact ⟨k₀, es, k, hboot, hrun, of_decide_eq_true hrec,
    mail_delivered (fun _ => by decide) hboot hrun⟩

end RtxKernel
