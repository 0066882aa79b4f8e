import RtxKernel.Process.Script
import RtxKernel.Kernel.Histories

/-!
# What a process knows

What a process knows of the blocks that it holds stays so, whatever the others do, and its own calls keep to the
contract over what it knows (`Shows.call`).
-/

namespace RtxKernel

namespace Spec.Kernel

variable {a b : Kernel} {base : Nat} {r r' : PcbPtr} {op : Op} {reply : Reply} {pid : UInt32} {v w : View}
  {S : Nat → UInt32 → Prop} {allowed : Deed → Prop} {c : Call} {e : Nat}

lemma Kept.messageAt (h : a.Kept b e) :
    RtxKernel.messageAt b.pool.memory e = RtxKernel.messageAt a.pool.memory e := messageAt_congr h

/-- What the process `pid` knows is so. -/
structure Shows (a : Kernel) (pid : UInt32) (v : View) : Prop where
  held : ∀ e ∈ v.held, a.Held e pid
  memory : ∀ e ∈ v.held, ∀ x, e ≤ x → x < e + memBlockSize → v.memory x = a.pool.memory x

lemma Shows.mono (h : a.Shows pid v) (hheld : ∀ e ∈ w.held, e ∈ v.held) (hmem : w.memory = v.memory) :
    a.Shows pid w where
  held := fun e he => h.held e (hheld e he)
  memory := fun e he => hmem ▸ h.memory e (hheld e he)

/-- What is kept is still known. -/
lemma Shows.preserves (h : a.Shows pid v) (hk : a.Preserves b S) (hS : ∀ e ∈ v.held, S e pid) : b.Shows pid v where
  held := fun e he => (hk.held e pid (h.held e he) (hS e he)).1
  memory := by
    intro e he x hx hx'
    rw [(hk.held e pid (h.held e he) (hS e he)).2 x hx hx']
    exact h.memory e he x hx hx'

lemma Shows.messageAt (h : a.Shows pid v) (he : e ∈ v.held) :
    RtxKernel.messageAt v.memory e = RtxKernel.messageAt a.pool.memory e := messageAt_congr (h.memory e he)

/-- The byte at `x` is in a block of the process. -/
lemma Shows.load (h : a.Shows pid v) {x : Nat} (hx : v.Owns x) : v.memory x = a.pool.memory x := by
  obtain ⟨e, he, hle, hlt⟩ := hx
  exact h.memory e he x hle hlt

/-! ### A call of the process -/

/-- The calls of a process are such as the kernel expects them, and in its own blocks. -/
lemma Shows.proper (h : a.Shows pid v) (hok : a.Ok base r) (hown : a.MailOwned) (hcur : a.sched.currentPid = pid)
    (hpid : pid ≠ 0) (hpre : (contract allowed).pre v c) (hop : c.op = some op) :
    a.Permits op ∧ a.Respects op ∧ a.UsesOwn op := by
  have hcur0 : a.sched.currentPid ≠ 0 := hcur ▸ hpid
  have hmine : ∀ {e}, e ∈ v.held → a.Owns e ∧ (∃ p, a.Held e p) := by
    intro e he
    obtain ⟨d, hd⟩ := (h.held e he).owned
    exact ⟨⟨d, hd.used, hd.start, hd.pid.trans hcur.symm⟩, pid, h.held e he⟩
  have hwork : ∀ {e}, e ∈ v.held → op.WorksAt (some e) → a.Permits op ∧ a.Respects op := by
    intro e he hw
    have hx : ∀ y, some e = some y → ∃ p, a.Held y p := fun y hy => Option.some.inj hy ▸ (hmine he).2
    exact ⟨hw.permits hcur0 hx, hw.respects hok hown hx⟩
  cases c with
  | load x => cases hop
  | getTime => cases hop
  | write x => cases hop
  | fail => cases hop
  | request =>
    obtain rfl := Option.some.inj hop
    exact ⟨hcur0, trivial, trivial⟩
  | setPriority p q =>
    obtain rfl := Option.some.inj hop
    exact ⟨hcur0, trivial, trivial⟩
  | send p e =>
    obtain rfl := Option.some.inj hop
    obtain ⟨hp, hr⟩ := hwork hpre.1 rfl
    exact ⟨hp, hr, (hmine hpre.1).1⟩
  | delayedSend p e delay =>
    obtain rfl := Option.some.inj hop
    obtain ⟨hp, hr⟩ := hwork hpre.1 rfl
    exact ⟨hp, hr, (hmine hpre.1).1⟩
  | release e =>
    obtain rfl := Option.some.inj hop
    obtain ⟨hp, hr⟩ := hwork hpre rfl
    exact ⟨hp, hr, trivial⟩
  | store x b =>
    obtain rfl := Option.some.inj hop
    obtain ⟨e, he, hle, hlt⟩ := hpre
    obtain ⟨hp, hr⟩ := hwork he ⟨e, rfl, hle, hlt⟩
    refine ⟨hp, hr, ?_⟩
    intro d hd hx hx'
    obtain ⟨d', hd'⟩ := (h.held e he).owned
    have hsame : a.pool.start d = e := by
      by_contra hne
      rw [← hd'.start, hok.pool.start_eq d hd, hok.pool.start_eq d' (hd'.lt hok)] at hne
      have hapart := blocks_apart hne
      rw [← hok.pool.start_eq d hd, ← hok.pool.start_eq d' (hd'.lt hok), hd'.start] at hapart
      omega
    rw [hsame]
    exact (hmine he).1

/-- What is left alone at the block at `x` -/
lemma Shows.at_block (h : a.Shows pid v) (hok : a.Ok base r) (hown : a.MailOwned) (hp : a.Permits op)
    (he : a.Effect op reply b) {x : Nat} (hx : x ∈ v.held) (hw : op.WorksAt (some x)) :
    a.Preserves b (fun y _ => y ≠ x) ∧ b.Shows pid (v.drop x) := by
  have hk := hw.preserves_at hok hown hp (h.held x hx) he
  refine ⟨hk, ?_⟩
  have hdrop : a.Shows pid (v.drop x) := h.mono (fun e he => (List.mem_filter.mp he).1) rfl
  exact hdrop.preserves hk fun e he => of_decide_eq_true (List.mem_filter.mp he).2

/-- A call of the process leaves the messages in the mailboxes alone. -/
lemma Shows.mail (h : a.Shows pid v) (hok : a.Ok base r) (hown : a.MailOwned) (hp : a.Permits op)
    (hpre : (contract allowed).pre v c) (hop : c.op = some op) (he : a.Effect op reply b) :
    a.Preserves b fun x _ => x ∈ a.mailbox ++ a.delayed := by
  have hwork : ∀ {e}, e ∈ v.held → op.WorksAt (some e) →
      a.Preserves b fun x _ => x ∈ a.mailbox ++ a.delayed := by
    intro e hheld hw
    refine (h.at_block hok hown hp he hheld hw).1.mono ?_
    rintro x - hx rfl
    exact (h.held x hheld).notMem hx
  cases c with
  | load x => cases hop
  | getTime => cases hop
  | write x => cases hop
  | fail => cases hop
  | request =>
    obtain rfl := Option.some.inj hop
    have hw : Op.WorksAt none .request := trivial
    exact (hw.preserves_all hok hown hp he).mono fun _ _ _ => trivial
  | setPriority p q =>
    obtain rfl := Option.some.inj hop
    exact Kernel.preserves hok hown hp trivial he fun _ _ _ _ _ => trivial
  | store x byte =>
    obtain rfl := Option.some.inj hop
    obtain ⟨e, hheld, hle, hlt⟩ := hpre
    exact hwork hheld ⟨e, rfl, hle, hlt⟩
  | send p e =>
    obtain rfl := Option.some.inj hop
    exact hwork hpre.1 rfl
  | delayedSend p e delay =>
    obtain rfl := Option.some.inj hop
    exact hwork hpre.1 rfl
  | release e =>
    obtain rfl := Option.some.inj hop
    exact hwork hpre rfl

/-- A call that is answered does what the contract says; a request that is not has to be made again. -/
lemma Shows.call (h : a.Shows pid v) (hok : a.Ok base r) (hok' : b.Ok base r') (hown : a.MailOwned)
    (hfree : a.FreeZero) (hcur : a.sched.currentPid = pid) (hpid : pid ≠ 0) (hpre : (contract allowed).pre v c)
    (hop : c.op = some op) (hy : a.call op = some (reply, b)) (he : a.Effect op reply b) :
    (∀ x, c.result reply = some x → ∃ w, (contract allowed).post v c x w ∧ b.Shows pid w ∧
      w.deeds = v.deeds ++ c.deed a.pool.memory x) ∧ (c.result reply = none → b.Shows pid v) := by
  obtain ⟨hp, -, -⟩ := h.proper hok hown hcur hpid hpre hop
  cases c with
  | load x => cases hop
  | getTime => cases hop
  | write x => cases hop
  | fail => cases hop
  | store x byte =>
    obtain rfl := Option.some.inj hop
    obtain ⟨rfl, rfl⟩ := store_done hy
    refine ⟨?_, fun hnone => by cases hnone⟩
    intro u _
    refine ⟨_, rfl, ⟨fun e hheld => (h.held e hheld).store x, ?_⟩, (List.append_nil _).symm⟩
    intro e hheld y hle hlt
    by_cases hxy : y = x
    · subst hxy
      have hin : (v.store y byte).memory y = byte := Function.update_self ..
      have hout : Function.update a.pool.memory y byte y = byte := Function.update_self ..
      exact hin.trans hout.symm
    · exact (Function.update_of_ne hxy _ _).trans
        ((h.memory e hheld y hle hlt).trans (Function.update_of_ne hxy _ _).symm)
  | request =>
    obtain rfl := Option.some.inj hop
    have hw : Op.WorksAt none .request := trivial
    have hshows := h.preserves (hw.preserves_all hok hown hp he) fun _ _ => trivial
    rcases request_cases hok hown hy he with rfl | ⟨x, rfl, hx, hnew⟩
    · exact ⟨fun x hx => (by cases hx), fun _ => hshows⟩
    · refine ⟨?_, fun hnone => by cases hnone⟩
      rintro _ ⟨⟩
      rw [hcur] at hx
      have hapart : ∀ e ∈ v.held, e + memBlockSize ≤ x ∨ x + memBlockSize ≤ e := by
        intro e hheld
        obtain ⟨d, hd⟩ := (hshows.held e hheld).owned
        obtain ⟨d', hd'⟩ := hx.owned
        apply hd.apart hok' hd'
        rintro rfl
        exact hnew pid (h.held e hheld)
      refine ⟨v.grant x, ⟨hapart, rfl⟩, ⟨?_, ?_⟩, (List.append_nil _).symm⟩
      · intro e hheld
        rcases List.mem_cons.mp hheld with rfl | hheld
        · exact hx
        · exact hshows.held e hheld
      · intro e hheld y hle hlt
        have hzero := hfree.granted hy
        rcases List.mem_cons.mp hheld with rfl | hheld
        · obtain ⟨i, rfl⟩ := Nat.exists_eq_add_of_le hle
          rw [hzero i (by omega)]
          exact fill_self hle hlt
        · refine (fill_frame ?_).trans (hshows.memory e hheld y hle hlt)
          have hap := hapart e hheld
          omega
  | send p e =>
    obtain rfl := Option.some.inj hop
    obtain ⟨-, hshows⟩ := h.at_block hok hown hp he hpre.1 rfl
    obtain ⟨code, rfl⟩ := send_code hy
    refine ⟨?_, fun hnone => by cases hnone⟩
    intro x _
    refine ⟨_, rfl, ⟨hshows.held, hshows.memory⟩, ?_⟩
    simp only [View.drop, View.note, Call.deed, h.messageAt hpre.1]
  | delayedSend p e delay =>
    obtain rfl := Option.some.inj hop
    obtain ⟨-, hshows⟩ := h.at_block hok hown hp he hpre.1 rfl
    obtain ⟨code, rfl⟩ : ∃ code, reply = .code code := by
      obtain ⟨x, -, hx⟩ := Option.map_eq_some_iff.mp hy
      exact ⟨x.1, (Prod.mk.inj hx).1.symm⟩
    refine ⟨?_, fun hnone => by cases hnone⟩
    intro x _
    refine ⟨_, rfl, ⟨hshows.held, hshows.memory⟩, ?_⟩
    simp only [View.drop, View.note, Call.deed, h.messageAt hpre.1]
  | release e =>
    obtain rfl := Option.some.inj hop
    obtain ⟨-, hshows⟩ := h.at_block hok hown hp he hpre rfl
    obtain ⟨code, rfl⟩ := release_code hy
    refine ⟨?_, fun hnone => by cases hnone⟩
    intro x _
    exact ⟨_, rfl, hshows, (List.append_nil _).symm⟩
  | setPriority p q =>
    obtain rfl := Option.some.inj hop
    have hk : a.Preserves b fun _ _ => True :=
      Kernel.preserves hok hown hp trivial he fun _ _ _ _ _ => trivial
    have hshows := h.preserves hk fun _ _ => trivial
    obtain ⟨x, -, hx⟩ := Option.map_eq_some_iff.mp hy
    obtain ⟨rfl, -⟩ := Prod.mk.inj hx
    refine ⟨?_, fun hnone => by cases hnone⟩
    rintro _ ⟨⟩
    exact ⟨_, rfl, ⟨hshows.held, hshows.memory⟩, rfl⟩

/-! ### The messages for the process -/

/-- The messages in the mailbox for the process `pid` -/
def inbox (a : Kernel) (pid : UInt32) : List IoMessage := (a.mailTo pid).map (RtxKernel.messageAt a.pool.memory)

def arrivedFor (a : Kernel) (pid : UInt32) (op : Op) (reply : Reply) (b : Kernel) : List IoMessage :=
  ((a.comesIn op reply).filter fun e => b.rx e = pid).map (RtxKernel.messageAt b.pool.memory)

/-- What was in the mailbox is still there, with what comes in behind it. -/
lemma Effect.inbox (he : a.Effect op reply b) (pid : UInt32) (hok : a.Ok base r) (hpost : a.Posted base)
    (hp : a.Permits op) (hk : a.Preserves b S) (hS : ∀ x ∈ a.mailTo pid, S x pid) (hbase : base ≠ 0)
    (hlive : ∃ x ∈ a.sched.live, a.sched.pid x = pid)
    (hrec : op = .receive → op.isQuiet reply = false → a.sched.currentPid ≠ pid) :
    b.inbox pid = a.inbox pid ++ a.arrivedFor pid op reply b := by
  have hmail := he.mailTo_comesIn (p := pid) hok hpost hp hk.rx hbase (fun h => h ▸ find_of_live hok hlive) hrec
  have hsame : (a.mailTo pid).map (RtxKernel.messageAt b.pool.memory) = a.inbox pid := by
    apply List.map_congr_left
    intro x hx
    obtain ⟨hmem, rfl⟩ := mem_mailTo.mp hx
    exact (hk.kept x (List.mem_append_left _ hmem) (hS x hx)).messageAt
  rw [Kernel.inbox, hmail, List.map_append, hsame]
  rfl

end Spec.Kernel

/-- Who uses only its own blocks spares those of the process. -/
lemma Spec.Kernel.UsesOwn.outside {base : Nat} {a : Spec.Kernel} {r : PcbPtr} {pid : UInt32} {op : Op}
    (hown : a.UsesOwn op) (hok : a.Ok base r) (hcaller : op.isInterrupt = true ∨ a.sched.currentPid ≠ pid) :
    a.Outside [pid] op := by
  refine ⟨hcaller.imp_right fun hne => by simpa using hne, ?_⟩
  intro e q c hc hq
  obtain rfl := List.mem_singleton.mp hq
  have hne : op.isInterrupt = false → ¬ a.Owns (a.pool.start c) := by
    rintro hint ⟨d, hd, hstart, hpid⟩
    obtain rfl := hok.pool.start_inj (hok.pool.lt_of_mem (q := .usedBlocks) hd) (hc.lt hok) hstart
    rcases hcaller with hcaller | hcaller
    · rw [hint] at hcaller
      cases hcaller
    · exact hcaller (hpid.symm.trans hc.pid)
  cases op with
  | send pid e => exact fun hs => hne rfl (hs ▸ hown)
  | delayedSend pid e delay => exact fun hs => hne rfl (hs ▸ hown)
  | release x => exact .inr fun hpid => hne rfl ⟨c, hc.used, rfl, hpid⟩
  | store x v =>
    by_contra hin
    rw [Spec.Kernel.LeavesAlone, not_or, Nat.not_lt, Nat.not_le] at hin
    exact hne rfl (hown c (hc.lt hok) hin.1 hin.2)
  | _ => trivial

/-- Code that keeps to the contract can come to its end. -/
lemma exists_of_wp {α : Type} {allowed : Deed → Prop} {c : Script α} {Q : α → View → Prop} {v : View}
    (h : c.wp (contract allowed) Q v) : ∃ q w, Q q w ∧ v.deeds <+: w.deeds := by
  refine Program.exists_of_wp (fun v w : View => v.deeds <+: w.deeds) (fun _ => List.prefix_refl _)
    (fun _ _ _ => List.IsPrefix.trans) ?_ h
  intro v c hpre
  cases c with
  | load x => exact ⟨v.memory x, v, ⟨rfl, rfl⟩, List.prefix_refl _⟩
  | store x b => exact ⟨(), _, rfl, List.prefix_refl _⟩
  | getTime => exact ⟨(0 : UInt32), _, rfl, List.prefix_append _ _⟩
  | request =>
    -- a block behind all that are held
    obtain ⟨x, hx⟩ : ∃ x, ∀ e ∈ v.held, e + memBlockSize ≤ x := by
      induction v.held with
      | nil => exact ⟨0, by simp⟩
      | cons e l ih =>
        obtain ⟨x, hx⟩ := ih
        refine ⟨x + (e + memBlockSize), ?_⟩
        intro y hy
        rcases List.mem_cons.mp hy with rfl | hy
        · omega
        · have := hx y hy
          omega
    exact ⟨x, _, ⟨fun e he => .inl (hx e he), rfl⟩, List.prefix_refl _⟩
  | send pid e => exact ⟨(0 : UInt32), _, rfl, List.prefix_append _ _⟩
  | delayedSend pid e delay => exact ⟨(0 : UInt32), _, rfl, List.prefix_append _ _⟩
  | release e => exact ⟨(0 : UInt32), _, rfl, List.prefix_refl _⟩
  | setPriority pid priority => exact ⟨(0 : UInt32), _, rfl, List.prefix_append _ _⟩
  | write c => exact ⟨(), _, rfl, List.prefix_append _ _⟩
  | fail => exact hpre.elim

end RtxKernel
