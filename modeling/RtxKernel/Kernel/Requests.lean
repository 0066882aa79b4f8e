import RtxKernel.Core.Order
import RtxKernel.Kernel.Waiters
import Mathlib.Data.Finset.Card

/-!
# Requests that wait

A call of `request_memory_block` that finds no block blocks its process, and tests again when the process runs the
next time. A block that is returned is not kept for the process that is woken: another one may take it before the
test. As long as this does not happen, and no message wakes a process that waits for memory, there is a block for
every process that has been woken, so that no call blocks a second time (`Serves.granted`).
-/

namespace RtxKernel

/-- The call has blocked the process in `request_memory_block_handler`. -/
def Event.isWait (e : Event) : Bool := e.op = .request ∧ e.reply = .block none

/-- The process `pid` is in a call of `request_memory_block` that has blocked it. -/
def requesting (pid : UInt32) (es : List Event) : Bool :=
  es.foldl (fun b e => if e.IsOf pid then e.isWait else b) false

lemma requesting_snoc (pid : UInt32) (es : List Event) (e : Event) : requesting pid (es ++ [e]) =
    if e.IsOf pid then e.isWait else requesting pid es := by
  simp [requesting]

/-- A block is taken out of the list `availableBlocks`. -/
def Event.takes (e : Event) : Bool :=
  match e.op, e.reply with
  | .request, .block a => a.isSome
  | .uart _, .sent c => c.isSome
  | _, _ => false

/-- A block is put into the list `availableBlocks`. -/
def Event.gives (e : Event) : Bool :=
  match e.op, e.reply with
  | .release _, .code c => c = 0
  | _, _ => false

/-- The number of blocks in the list `availableBlocks` -/
def Pool.freeBlocks (p : Pool) : Nat := (List.range memBlockCount).countP fun b =>
  find p.next (fun c => decide (c = b)) memBlockCount (p.queue .availableBlocks) = some (some b)

/-- Any primitive of the kernel, except that the NULL process makes no calls -/
def Kernel.CallsPrimitive (k : Kernel) (op : Op) : Prop := k.Calls op ∧ op.isPrimitive = true

instance (k : Kernel) (op : Op) : Decidable (k.CallsPrimitive op) :=
  inferInstanceAs (Decidable (k.Calls op ∧ op.isPrimitive = true))

/-- The kernel, and its history -/
structure Traced where
  kernel : Kernel
  history : List Event

namespace Traced

/-- The process is in a call of `request_memory_block` that has blocked it. -/
def InRequest (s : Traced) (p : PcbPtr) : Prop := requesting (s.kernel.sched.pcb p).pid s.history = true

instance (s : Traced) (p : PcbPtr) : Decidable (s.InRequest p) :=
  inferInstanceAs (Decidable (requesting (s.kernel.sched.pcb p).pid s.history = true))

/-- One step, with any call of the kernel, any arguments, and any store. A call is not interrupted: a process that was
woken in `request_memory_block_handler` goes on there with its test, before anything else happens. -/
def Step (s : Traced) (e : Event) (t : Traced) : Prop :=
  s.kernel.StepIf Kernel.CallsPrimitive e t.kernel ∧ t.history = s.history ++ [e] ∧
    (requesting e.caller s.history = true → e.op = .request)

/-- The processes that were woken in `request_memory_block_handler` and have not tested again -/
def retesting (s : Traced) : Finset PcbPtr :=
  s.kernel.sched.live.filter fun p => s.InRequest p ∧ (s.kernel.sched.pcb p).state ≠ .blockedMem

/-- A step that takes nothing from the processes that were woken: no message wakes a process that waits for
memory, and a block goes to a call that has waited, or there are more blocks than processes that were woken. -/
structure Undisturbed (s : Traced) (e : Event) : Prop where
  unwoken : ∀ p ∈ s.kernel.sched.live, (s.kernel.sched.pcb p).state = .blockedMem →
    s.kernel.RousedBy (s.kernel.sched.pcb p).pid e.op e.reply → e.gives = true
  spare : e.takes = true → requesting e.caller s.history = true ∨ s.retesting.card < s.kernel.pool.freeBlocks

end Traced

namespace Spec

/-! ### One process is woken -/

lemma Sched.Steady.rouses_one {a b : Sched} {r : PcbPtr} (h : a.Steady r) (hs : a.unblockByType .mem = some b) :
    ∃ x, Sched.Rouses .blockedMem a b fun p => p = x := by
  rw [Sched.unblockByType] at hs
  obtain ⟨y, hy, rfl⟩ := Option.map_eq_some_iff.mp hs
  rcases Sched.unblockByTypeSection_cases h.wf h.running (h.ne_firstLevel .mem) with ⟨-, he⟩ | ⟨i, x, -, he⟩
  · obtain rfl := Option.some.inj (he.symm.trans hy)
    exact ⟨r, (Sched.Rouses.refl _ a _).releaseIf rfl⟩
  · obtain rfl := Option.some.inj (he.symm.trans hy)
    refine ⟨x, Sched.Rouses.releaseIf rfl ?_⟩
    apply Sched.Rouses.refile
    intro _
    exact .inr rfl

namespace Kernel

variable {a b : Kernel} {base : Nat} {r p : PcbPtr} {op : Op} {reply : Reply} {es : List Event} {e : Event}

lemma Ok.rouses_one (h : a.Ok base r) {x : Nat} (hy : a.call (.release x) = some (reply, b)) :
    ∃ x, Sched.Rouses .blockedMem a.sched b.sched fun p => p = x := by
  obtain ⟨z, hz, hb⟩ := Option.map_eq_some_iff.mp hy
  obtain ⟨rfl, rfl⟩ := Prod.mk.inj hb
  rw [Kernel.releaseMemoryBlock] at hz
  dsimp only at hz
  split_ifs at hz
  · obtain ⟨s, hs, rfl⟩ := Option.map_eq_some_iff.mp hz
    exact h.sched.rouses_one hs
  · obtain rfl := Option.some.inj hz
    exact ⟨r, Sched.Rouses.refl ..⟩

lemma take_available {current : UInt32} {x : Nat} {q : Pool} (hq : a.pool.take current = some (x, q)) :
    q.available.length + 1 = a.pool.available.length := by
  obtain ⟨d, t, hav, -, rfl⟩ := take_cases hq
  rw [hav]
  rfl

lemma address_available {pid : UInt32} {x : Nat} (hb : a.address pid x = some b) :
    b.pool.available = a.pool.available := by
  obtain ⟨c, -, rfl⟩ := address_eq_some_iff.mp hb
  rfl

lemma takes_of_isQuiet {caller : UInt32} (h : op.isQuiet reply = true) :
    (Event.mk caller op reply).takes = false := by
  cases op with
  | request =>
    cases reply with
    | block x => simpa [Op.isQuiet, Event.takes] using h
    | _ => rfl
  | uart c =>
    cases reply with
    | sent code => simpa [Op.isQuiet, Event.takes] using h
    | _ => rfl
  | _ => rfl

lemma gives_of_isQuiet {caller : UInt32} (h : op.isQuiet reply = true) :
    (Event.mk caller op reply).gives = false := by
  cases op with
  | release x =>
    cases reply with
    | code c => simpa [Op.isQuiet, Event.gives] using h
    | _ => rfl
  | _ => rfl

/-- How the number of available blocks changes -/
lemma Effect.available_length (he : a.Effect op reply b) (hok : a.Ok base r) (caller : UInt32) :
    b.pool.available.length + ((Event.mk caller op reply).takes).toNat =
      a.pool.available.length + ((Event.mk caller op reply).gives).toNat := by
  cases he with
  | quiet s hq =>
    rw [takes_of_isQuiet hq, gives_of_isQuiet hq]
    rfl
  | sent s hb hne =>
    have havail := address_available hb
    exact congrArg List.length havail
  | delayed hb hne =>
    have havail := address_available hb
    exact congrArg List.length havail
  | granted hp => exact take_available hp
  | released s hc hx ho => exact List.length_append
  | ticked s hb =>
    have hmv := hok.moves_tick hb
    rw [withSched_pool, hmv.pool]
    rfl
  | typedLost hp hlost =>
    have htake := take_available hp
    exact htake
  | typed s hp hb =>
    have htake := take_available hp
    have havail := address_available hb
    rw [← htake]
    exact congrArg (fun l => l.length + 1) havail
  | _ => rfl

/-! ### What a process waits for -/

/-- A process in a call of `request_memory_block` waits for nothing else. -/
def Waits (a : Kernel) (es : List Event) : Prop :=
  ∀ p ∈ a.sched.live, requesting (a.sched.pid p) es = true → a.sched.state p ≠ .blockedMsg

/-- The process that makes a call is the one that runs. -/
lemma Ok.eq_of_isOf (h : a.Ok base r) (hp : p ∈ a.sched.live)
    (hof : Event.IsOf ⟨a.sched.currentPid, op, reply⟩ (a.sched.pid p)) : p = r :=
  h.sched.wf.pid_inj p hp r (h.sched.wf.running_live r h.sched.running) (hof.1.symm.trans h.currentPid)

theorem Waits.step (h : a.Waits es) (hok : a.Ok base r) (hz : op.isInterrupt = false → a.sched.pid r ≠ 0)
    (hop : op.isPrimitive = true) (hy : a.call op = some (reply, b)) :
    b.Waits (es ++ [⟨a.sched.currentPid, op, reply⟩]) := by
  intro p hp hreq hb
  have hframe := (hok.call hz hy).1
  have hp' := hframe.live hp
  rw [hframe.pid, requesting_snoc] at hreq
  rcases hok.blockedMsg_of_call hop hy hb with hs | ⟨rfl, rfl, -⟩
  · have hcall : ¬ Event.IsOf ⟨a.sched.currentPid, op, reply⟩ (a.sched.pid p) := by
      intro hof
      rw [hok.eq_of_isOf hp' hof, hok.sched.ready] at hs
      cases hs
    rw [if_neg hcall] at hreq
    exact h p hp' hreq hs
  · rw [if_pos ⟨hok.currentPid, rfl⟩] at hreq
    cases hreq

/-! ### There are enough blocks -/

/-- The processes that were woken in `request_memory_block_handler` and have not tested again -/
def retesting (a : Kernel) (es : List Event) : Finset PcbPtr :=
  a.sched.live.filter fun p => requesting (a.sched.pid p) es = true ∧ a.sched.state p ≠ .blockedMem

/-- There is a block for each process that was woken. -/
def Serves (a : Kernel) (es : List Event) : Prop := (a.retesting es).card ≤ a.pool.available.length

lemma mem_retesting : p ∈ a.retesting es ↔
    p ∈ a.sched.live ∧ requesting (a.sched.pid p) es = true ∧ a.sched.state p ≠ .blockedMem := Finset.mem_filter

lemma Ok.running_retesting (h : a.Ok base r) (hreq : requesting (a.sched.pid r) es = true) : r ∈ a.retesting es := by
  refine mem_retesting.mpr ⟨h.sched.wf.running_live r h.sched.running, hreq, ?_⟩
  rw [h.sched.ready]
  nofun

lemma Ok.wait_state (h : a.Ok base r) (hy : a.call .request = some (.block none, b)) :
    b.sched.state r = .blockedMem ∧ a.pool.available = [] := by
  obtain ⟨hreply, rfl⟩ := Prod.mk.inj (Option.some.inj hy)
  rw [Kernel.requestMemoryBlock] at hreply ⊢
  rw [Pool.take] at hreply ⊢
  cases hav : a.pool.available with
  | nil => exact ⟨h.sched.block_state .mem, rfl⟩
  | cons d t =>
    rw [hav] at hreply
    cases hreply

namespace Serves

/-- A process that was woken gets a block. -/
theorem granted (h : a.Serves es) (hok : a.Ok base r) (hreq : requesting (a.sched.pid r) es = true)
    (hy : a.call .request = some (reply, b)) : ∃ x, reply = .block (some x) := by
  cases reply with
  | block o =>
    cases o with
    | some x => exact ⟨x, rfl⟩
    | none =>
      have hempty := (hok.wait_state hy).2
      rw [Serves, hempty, List.length_nil, Nat.le_zero, Finset.card_eq_zero] at h
      have hmem := hok.running_retesting hreq
      rw [h] at hmem
      cases hmem
  | _ => cases Option.some.inj hy

end Serves

/-- A process that counts as woken after an operation has done so before, and has made no call; or it was woken
by a block that was returned. -/
lemma Ok.retesting_of_step (h : a.Ok base r) (hz : op.isInterrupt = false → a.sched.pid r ≠ 0)
    (hy : a.call op = some (reply, b))
    (hun : ∀ p ∈ a.sched.live, a.sched.state p = .blockedMem → a.RousedBy .mem p op reply →
      (Event.mk a.sched.currentPid op reply).gives = true)
    (hp : p ∈ b.retesting (es ++ [⟨a.sched.currentPid, op, reply⟩])) :
    p ∈ a.retesting es ∧ ¬ (p = r ∧ op.isInterrupt = false) ∨
      a.sched.state p = .blockedMem ∧ (Event.mk a.sched.currentPid op reply).gives = true := by
  obtain ⟨hlive, hreq, hstate⟩ := mem_retesting.mp hp
  have hframe := (h.call hz hy).1
  have hp' := hframe.live hlive
  rw [hframe.pid, requesting_snoc] at hreq
  have hcall : ¬ Event.IsOf ⟨a.sched.currentPid, op, reply⟩ (a.sched.pid p) := by
    intro hof
    rw [if_pos hof] at hreq
    obtain ⟨rfl, rfl⟩ : op = .request ∧ reply = .block none := of_decide_eq_true hreq
    rw [h.eq_of_isOf hp' hof] at hstate
    exact hstate (h.wait_state hy).1
  rw [if_neg hcall] at hreq
  by_cases hs : a.sched.state p = .blockedMem
  · right
    rcases (h.rouses .mem hy).state p hs with hb | hroused
    · exact absurd hb hstate
    · exact ⟨hs, hun p hp' hs hroused⟩
  · left
    refine ⟨mem_retesting.mpr ⟨hp', hreq, hs⟩, ?_⟩
    rintro ⟨rfl, hint⟩
    exact hcall ⟨h.currentPid, hint⟩

lemma release_of_gives {caller : UInt32} (hg : (Event.mk caller op reply).gives = true) :
    ∃ x, op = .release x ∧ reply = .code 0 := by
  cases op with
  | release x =>
    cases reply with
    | code c =>
      obtain rfl : c = 0 := of_decide_eq_true hg
      exact ⟨x, rfl, rfl⟩
    | _ => cases hg
  | _ => cases hg

namespace Serves

theorem step (h : a.Serves es) (hok : a.Ok base r) (hz : op.isInterrupt = false → a.sched.pid r ≠ 0)
    (hy : a.call op = some (reply, b)) (he : a.Effect op reply b)
    (hgoes : requesting a.sched.currentPid es = true → op = .request)
    (hun : ∀ p ∈ a.sched.live, a.sched.state p = .blockedMem → a.RousedBy .mem p op reply →
      (Event.mk a.sched.currentPid op reply).gives = true)
    (hspare : (Event.mk a.sched.currentPid op reply).takes = true →
      requesting a.sched.currentPid es = true ∨ (a.retesting es).card < a.pool.available.length) :
    b.Serves (es ++ [⟨a.sched.currentPid, op, reply⟩]) := by
  have hstep : ∀ {p : PcbPtr}, p ∈ b.retesting (es ++ [⟨a.sched.currentPid, op, reply⟩]) → _ :=
    fun hp => hok.retesting_of_step hz hy hun hp
  have havail := he.available_length hok a.sched.currentPid
  rw [Serves] at h ⊢
  cases hg : (Event.mk a.sched.currentPid op reply).gives with
  | true =>
    -- one more block, and one more process that was woken
    obtain ⟨x, rfl, hreply⟩ := release_of_gives hg
    obtain ⟨q, hq⟩ := hok.rouses_one hy
    have hsub : b.retesting (es ++ [⟨a.sched.currentPid, .release x, reply⟩]) ⊆ insert q (a.retesting es) := by
      intro p hp
      rcases hstep hp with ⟨hmem, -⟩ | ⟨hs, -⟩
      · exact Finset.mem_insert_of_mem hmem
      · rcases hq.state p hs with hb | rfl
        · exact absurd hb (mem_retesting.mp hp).2.2
        · exact Finset.mem_insert_self p _
    have hcard := (Finset.card_le_card hsub).trans (Finset.card_insert_le q _)
    have htakes : (Event.mk a.sched.currentPid (.release x) reply).takes = false := rfl
    rw [hg, htakes] at havail
    simp only [Bool.toNat_false, Bool.toNat_true] at havail
    omega
  | false =>
    have hsub : b.retesting (es ++ [⟨a.sched.currentPid, op, reply⟩]) ⊆ a.retesting es := by
      intro p hp
      rcases hstep hp with ⟨hmem, -⟩ | ⟨-, hgives⟩
      · exact hmem
      · rw [hg] at hgives
        cases hgives
    have hcard := Finset.card_le_card hsub
    rw [hg, Bool.toNat_false] at havail
    cases ht : (Event.mk a.sched.currentPid op reply).takes with
    | false =>
      rw [ht, Bool.toNat_false] at havail
      omega
    | true =>
      rw [ht, Bool.toNat_true] at havail
      rcases hspare ht with hreq | hlt
      · -- the process that takes the block is one of those that were woken
        obtain rfl := hgoes hreq
        rw [hok.currentPid] at hreq
        have hr := hok.running_retesting hreq
        have hless : (b.retesting (es ++ [⟨a.sched.currentPid, .request, reply⟩])).card < (a.retesting es).card := by
          apply Finset.card_lt_card
          refine (Finset.ssubset_iff_of_subset hsub).mpr ⟨r, hr, ?_⟩
          intro hmem
          rcases hstep hmem with ⟨-, hnot⟩ | ⟨-, hgives⟩
          · exact hnot ⟨rfl, rfl⟩
          · cases hgives
        omega
      · omega

end Serves

end Kernel

end Spec

/-! ### In the code -/

section Served

variable {priority : Fin 6 → UInt8} {base : Nat} {k k' k₀ : Kernel} {a : Spec.Kernel} {r p : PcbPtr}
  {es : List Event} {e : Event} {s t : Traced}

lemma Sound.freeBlocks (h : Sound base k a r) : k.pool.freeBlocks = a.pool.available.length := by
  have hchain := h.rep.pool.chain .availableBlocks
  have htest : ∀ b, (find k.pool.next (fun c => decide (c = b)) memBlockCount
      (k.pool.queue .availableBlocks) = some (some b)) ↔ b ∈ a.pool.available := by
    intro b
    rw [hchain.find_eq _ (PoolRep.length_le h.ok.pool .availableBlocks), Option.some.injEq,
      Spec.Pool.list_availableBlocks]
    constructor
    · exact List.mem_of_find?_eq_some
    · intro hb
      obtain ⟨c, hc⟩ := Option.isSome_iff_exists.mp
        (List.find?_isSome (p := fun c => decide (c = b)).mpr ⟨b, hb, by simp⟩)
      rw [hc, of_decide_eq_true (List.find?_some (p := fun c => decide (c = b)) hc)]
  have hperm : ((List.range memBlockCount).filter fun b => b ∈ a.pool.available).Perm a.pool.available := by
    apply (List.perm_ext_iff_of_nodup (List.nodup_range.filter _)
      (h.ok.pool.nodup_list .availableBlocks)).mpr
    intro b
    rw [List.mem_filter, List.mem_range, decide_eq_true_iff]
    constructor
    · rintro ⟨-, hb⟩
      exact hb
    · intro hb
      exact ⟨h.ok.pool.lt_of_mem (q := .availableBlocks) hb, hb⟩
  rw [Pool.freeBlocks]
  simp only [htest]
  rw [List.countP_eq_length_filter]
  exact hperm.length_eq

/-- What holds after a run. -/
structure Waited (base : Nat) (s : Traced) (a : Spec.Kernel) (r : PcbPtr) : Prop
    extends Sound base s.kernel a r where
  waits : a.Waits s.history

namespace Waited

lemma inRequest_iff (h : Waited base s a r) :
    s.InRequest p ↔ requesting (a.sched.pid p) s.history = true := by
  rw [Traced.InRequest, h.rep.sched.pid]

lemma retesting (h : Waited base s a r) : s.retesting = a.retesting s.history := by
  ext p
  rw [Traced.retesting, Finset.mem_filter, Spec.Kernel.mem_retesting, h.rep.sched.live, h.rep.sched.state,
    h.inRequest_iff]

/-- What one step does, in the code and in the abstract kernel. -/
structure Next (base : Nat) (s : Traced) (a : Spec.Kernel) (r : PcbPtr) (e : Event) (t : Traced) (b : Spec.Kernel)
    (r' : PcbPtr) : Prop where
  waited : Waited base t b r'
  caller : e.caller = a.sched.currentPid
  call : a.call e.op = some (e.reply, b)
  effect : a.Effect e.op e.reply b
  history : t.history = s.history ++ [e]
  nonzero : e.op.isInterrupt = false → a.sched.pid r ≠ 0
  primitive : e.op.isPrimitive = true
  goes : requesting a.sched.currentPid s.history = true → e.op = .request

lemma step (h : Waited base s a r) (hs : s.Step e t) : ∃ b r', Next base s a r e t b r' := by
  obtain ⟨caller, op, reply⟩ := e
  obtain ⟨⟨hcaller, ⟨hcalls, hop⟩, hcall⟩, hhist, hgoes⟩ := hs
  obtain ⟨b, r', hb, hsound, -⟩ := h.toSound.call hcalls hcall
  rw [h.rep.currentPid] at hcaller
  obtain rfl : caller = a.sched.currentPid := hcaller
  have hz : op.isInterrupt = false → a.sched.pid r ≠ 0 := by
    intro hint
    rw [← h.ok.currentPid, ← h.rep.currentPid]
    exact hcalls hint
  refine ⟨b, r', ⟨hsound, ?_⟩, rfl, hb, h.ok.effect hb, hhist, hz, hop, hgoes⟩
  rw [hhist]
  exact h.waits.step h.ok hz hop hb

lemma boot (hprio : ∀ i, priority i ≤ 4) (hboot : boot priority base = some k₀) :
    ∃ a r, Waited base ⟨k₀, []⟩ a r := by
  obtain ⟨a, r, hs, -⟩ := Safe.boot hprio hboot
  refine ⟨a, r, hs.toSound, ?_⟩
  intro p _ hreq
  cases hreq

lemma of_run (hprio : ∀ i, priority i ≤ 4) (hboot : RtxKernel.boot priority base = some k₀)
    (h : Run Traced.Step ⟨k₀, []⟩ es s) : ∃ a r, Waited base s a r := by
  apply h.invariant (I := fun s => ∃ a r, Waited base s a r)
  · exact boot hprio hboot
  · rintro s e t ⟨a, r, h⟩ hs
    obtain ⟨b, r', hn⟩ := h.step hs
    exact ⟨b, r', hn.waited⟩

end Waited

/-- The steps of a run that takes nothing from the processes that were woken. -/
def Traced.StepUndisturbed (s : Traced) (e : Event) (t : Traced) : Prop := s.Step e t ∧ s.Undisturbed e

/-- What holds after a run of undisturbed steps. -/
structure Served (base : Nat) (s : Traced) (a : Spec.Kernel) (r : PcbPtr) : Prop extends Waited base s a r where
  serves : a.Serves s.history

namespace Served

lemma step (h : Served base s a r) (hs : s.StepUndisturbed e t) :
    ∃ b r', Waited.Next base s a r e t b r' ∧ Served base t b r' := by
  obtain ⟨hs, hu⟩ := hs
  obtain ⟨b, r', hn⟩ := h.toWaited.step hs
  obtain ⟨caller, op, reply⟩ := e
  obtain rfl : caller = a.sched.currentPid := hn.caller
  refine ⟨b, r', hn, hn.waited, ?_⟩
  rw [hn.history]
  apply h.serves.step h.ok hn.nonzero hn.call hn.effect hn.goes
  · intro p hlive hstate hroused
    have hk := h.rousedBy hroused
    rw [← h.rep.sched.pid] at hk
    exact hu.unwoken p (h.rep.sched.live ▸ hlive) ((h.rep.sched.state p).trans hstate) hk
  · intro htakes
    have hspare := hu.spare htakes
    rwa [h.retesting, h.freeBlocks] at hspare

lemma of_run (hprio : ∀ i, priority i ≤ 4) (hboot : boot priority base = some k₀)
    (h : Run Traced.StepUndisturbed ⟨k₀, []⟩ es s) : ∃ a r, Served base s a r := by
  apply h.invariant (I := fun s => ∃ a r, Served base s a r)
  · obtain ⟨a, r, hw⟩ := Waited.boot hprio hboot
    refine ⟨a, r, hw, ?_⟩
    have hempty : a.retesting [] = ∅ := by
      apply Finset.filter_eq_empty_iff.mpr
      rintro p _ ⟨hreq, -⟩
      cases hreq
    rw [Spec.Kernel.Serves, hempty, Finset.card_empty]
    exact Nat.zero_le _
  · rintro s e t ⟨a, r, h⟩ hs
    obtain ⟨b, r', -, hn⟩ := h.step hs
    exact ⟨b, r', hn⟩

end Served

end Served

end RtxKernel
