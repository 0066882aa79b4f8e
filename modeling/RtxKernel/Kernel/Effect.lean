import RtxKernel.Kernel.Mailbox

/-!
# What an operation does to messages and blocks

`a.Effect op reply b` lists what an operation can do apart from rescheduling: nothing, or it accepts
a message, hands one over, grants or takes back a block, stores a byte, or moves due messages. Every
operation that comes back has such an effect (`Ok.effect`), and the later developments are case
analyses over this list.
-/

namespace RtxKernel

/-- The replies with which an operation has done nothing apart from rescheduling. -/
def Op.isQuiet : Op → Reply → Bool
  | .send _ _, .code c | .delayedSend _ _ _, .code c | .release _, .code c => c ≠ 0
  | .receive, .envelope e => e.isNone
  | .request, .block x => x.isNone
  | .uart _, .sent c => c.isNone
  | .store _ _, _ | .timer, _ => false
  | _, _ => true

namespace Spec.Kernel

variable {a b : Kernel} {base : Nat} {r : PcbPtr}

/-- The message of the UART to the keyboard decoder in the envelope `x`. -/
def type (a : Kernel) (p : Pool) (x : Nat) (c : UInt8) : Kernel :=
  (((a.withPool p).write (txField x) uartPid).write (rxField x) kcdPid).store (msgField x) c

/-- The envelope `e` is accepted for the process `pid`. -/
def post (b : Kernel) (e : Nat) : Kernel := { b with mailbox := storeIn b.mailbox e }

/-- The envelope `e` is accepted for delivery at the time `t`. -/
def postDelayed (b : Kernel) (e : Nat) (t : UInt32) : Kernel :=
  { b.write (sendTimeField e) t with delayed := storeIn b.delayed e }

/-- The block `c` is zeroed and made available again. -/
def giveBack (a : Kernel) (c : BlockPtr) : Kernel :=
  a.withPool { a.pool.setPid c noPid with
    available := a.pool.available ++ [c]
    used := a.pool.used.erase c
    memory := fill a.pool.memory (a.pool.start c) memBlockSize 0 }

inductive Effect (a : Kernel) : Op → Reply → Kernel → Prop
  | quiet {op : Op} {reply : Reply} (s : Sched) (h : op.isQuiet reply = true) :
      Effect a op reply (a.withSched s)
  | sent {pid : UInt32} {e : Nat} {b : Kernel} (s : Sched) (hb : a.address pid e = some b)
      (hne : e ≠ 0) :
      Effect a (.send pid e) (.code 0) ((b.post e).withSched s)
  | delayed {pid delay : UInt32} {e : Nat} {b : Kernel} (hb : a.address pid e = some b)
      (hne : e ≠ 0) :
      Effect a (.delayedSend pid e delay) (.code 0) (b.postDelayed e (delay + a.ticks))
  | received {i e : Nat} (he : a.mailbox[i]? = some e) (hrx : a.rx e = a.sched.currentPid)
      (hfirst : ∀ j < i, ∀ e', a.mailbox[j]? = some e' → a.rx e' ≠ a.sched.currentPid) :
      Effect a .receive (.envelope (some (e, a.tx e)))
        { a with mailbox := a.mailbox.eraseIdx i }
  | granted {x : Nat} {p : Pool} (hp : a.pool.take a.sched.currentPid = some (x, p)) :
      Effect a .request (.block (some x)) (a.withPool p)
  | released {x : Nat} {c : BlockPtr} (s : Sched) (hc : c ∈ a.pool.used) (hx : a.pool.start c = x)
      (ho : a.pool.pid c = a.sched.currentPid) :
      Effect a (.release x) (.code 0) ((a.giveBack c).withSched s)
  | stored {x : Nat} {v : UInt8} : Effect a (.store x v) .done (a.store x v)
  | ticked {new : List Nat} {w : UInt32} {b : Kernel} (s : Sched)
      (hb : checkFrom (2 * memBlockCount) 0 4 [] { a with ticks := a.ticks + 1 } = some (new, w, b)) :
      Effect a .timer (.moved new) (b.withSched s)
  | typedLost {x : Nat} {p : Pool} {c : UInt8} {code : UInt32}
      (hp : a.pool.take a.sched.currentPid = some (x, p))
      (hlost : x = 0 ∨ a.sched.find kcdPid = none) :
      Effect a (.uart c) (.sent (some code)) (a.type p x c)
  | typed {x : Nat} {p : Pool} {c : UInt8} {b : Kernel} (s : Sched)
      (hp : a.pool.take a.sched.currentPid = some (x, p))
      (hb : (a.type p x c).address kcdPid x = some b) (hne : x ≠ 0) :
      Effect a (.uart c) (.sent (some 0)) ((b.post x).withSched s)

@[simp] lemma withSched_self (a : Kernel) : a.withSched a.sched = a := rfl

/-- A message is rejected, or it is accepted and its receiver may be woken. -/
lemma sendMessage_cases {pid : UInt32} {e : Nat} {y : UInt32 × Kernel}
    (hy : a.sendMessage pid e = some y) :
    ((e = 0 ∨ a.sched.find pid = none) ∧ ∃ c, c ≠ 0 ∧ y = (c, a)) ∨
      e ≠ 0 ∧ ∃ b s, a.address pid e = some b ∧ y = (0, (b.post e).withSched s) := by
  rw [sendMessage] at hy
  obtain ⟨x, hx, hy⟩ := Option.bind_eq_some_iff.mp hy
  rcases sendSection_cases hx with ⟨hwhy, c, hc, rfl⟩ | ⟨hne, b, hb, rfl⟩
  · exact .inl ⟨hwhy, c, hc, (Option.some.inj hy).symm⟩
  · obtain ⟨s, -, hy⟩ := Option.bind_eq_some_iff.mp hy
    exact .inr ⟨hne, b, s, hb, (Option.some.inj hy).symm⟩

theorem Ok.effect (h : a.Ok base r) {op : Op} {reply : Reply} (hy : a.call op = some (reply, b)) :
    a.Effect op reply b := by
  cases op with
  | releaseProcessor =>
    obtain ⟨rfl, rfl⟩ := Prod.mk.inj (Option.some.inj hy)
    exact .quiet _ rfl
  | block t =>
    obtain ⟨rfl, rfl⟩ := Prod.mk.inj (Option.some.inj hy)
    exact .quiet _ rfl
  | unblockByPid pid allow =>
    obtain ⟨s, -, hb⟩ := Option.map_eq_some_iff.mp hy
    obtain ⟨rfl, rfl⟩ := Prod.mk.inj hb
    exact .quiet _ rfl
  | unblockByType t =>
    obtain ⟨s, -, hb⟩ := Option.map_eq_some_iff.mp hy
    obtain ⟨rfl, rfl⟩ := Prod.mk.inj hb
    exact .quiet _ rfl
  | setPriority pid priority =>
    obtain ⟨s, -, hb⟩ := Option.map_eq_some_iff.mp hy
    obtain ⟨rfl, rfl⟩ := Prod.mk.inj hb
    exact .quiet _ rfl
  | send pid e =>
    obtain ⟨y, hy, hb⟩ := Option.map_eq_some_iff.mp hy
    rcases sendMessage_cases hy with ⟨-, c, hc, rfl⟩ | ⟨hne, b', s, hb', rfl⟩
    · obtain ⟨rfl, rfl⟩ := Prod.mk.inj hb
      exact .quiet a.sched (by simpa [Op.isQuiet] using hc)
    · obtain ⟨rfl, rfl⟩ := Prod.mk.inj hb
      exact .sent s hb' hne
  | delayedSend pid e delay =>
    obtain ⟨y, hy, hb⟩ := Option.map_eq_some_iff.mp hy
    rcases delayedSend_cases hy with ⟨c, hc, rfl⟩ | ⟨hne, b', hb', rfl⟩
    · obtain ⟨rfl, rfl⟩ := Prod.mk.inj hb
      exact .quiet a.sched (by simpa [Op.isQuiet] using hc)
    · obtain ⟨rfl, rfl⟩ := Prod.mk.inj hb
      have hticks : b'.ticks = a.ticks := by
        obtain ⟨c, -, rfl⟩ := address_eq_some_iff.mp hb'
        rfl
      rw [hticks]
      exact .delayed hb' hne
  | receive =>
    obtain ⟨rfl, rfl⟩ := Prod.mk.inj (Option.some.inj hy)
    rcases receiveScan_cases a with ⟨-, he⟩ | ⟨i, e, hi, hrx, hfirst, he⟩
    · rw [he]
      exact .quiet _ rfl
    · rw [he]
      exact .received hi hrx hfirst
  | request =>
    obtain ⟨rfl, rfl⟩ := Prod.mk.inj (Option.some.inj hy)
    rw [Kernel.requestMemoryBlock]
    cases ht : a.pool.take a.sched.currentPid with
    | none => exact .quiet _ rfl
    | some x => exact .granted ht
  | release x =>
    obtain ⟨y, hrel, hb⟩ := Option.map_eq_some_iff.mp hy
    obtain ⟨rfl, rfl⟩ := Prod.mk.inj hb
    rw [Kernel.releaseMemoryBlock] at hrel
    rcases h.pool.release_cases x a.sched.currentPid with ⟨c, hc, he⟩ | ⟨c, hcu, hx, ho, he⟩
    · simp only [he, if_neg hc] at hrel
      obtain rfl := Option.some.inj hrel
      exact .quiet a.sched (by simpa [Op.isQuiet] using hc)
    · simp only [he, if_true] at hrel
      obtain ⟨s, -, rfl⟩ := Option.map_eq_some_iff.mp hrel
      exact .released s hcu hx ho
  | store x v =>
    obtain ⟨rfl, rfl⟩ := Prod.mk.inj (Option.some.inj hy)
    exact .stored
  | terminate =>
    obtain ⟨s, -, hb⟩ := Option.map_eq_some_iff.mp hy
    obtain ⟨rfl, rfl⟩ := Prod.mk.inj hb
    exact .quiet _ rfl
  | timer =>
    obtain ⟨y, hy, hb⟩ := Option.map_eq_some_iff.mp hy
    obtain ⟨⟨new, w, b'⟩, hb', rfl⟩ := Option.map_eq_some_iff.mp hy
    obtain ⟨rfl, rfl⟩ := Prod.mk.inj hb
    dsimp only
    split_ifs
    · exact .ticked _ hb'
    · exact .ticked b'.sched hb'
  | uart c =>
    obtain ⟨y, hu, hb⟩ := Option.map_eq_some_iff.mp hy
    obtain ⟨rfl, rfl⟩ := Prod.mk.inj hb
    rw [Kernel.uartHandler] at hu
    cases ht : a.pool.take a.sched.currentPid with
    | none =>
      rw [ht] at hu
      obtain rfl := Option.some.inj hu
      exact .quiet a.sched rfl
    | some x =>
      rw [ht] at hu
      obtain ⟨z, hz, rfl⟩ := Option.map_eq_some_iff.mp hu
      rcases sendMessage_cases hz with ⟨hlost, code, -, rfl⟩ | ⟨hne, b', s, hb', rfl⟩
      · exact .typedLost ht hlost
      · exact .typed s ht hb' hne

end Spec.Kernel

end RtxKernel
