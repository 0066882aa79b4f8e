import RtxKernel.Process.CommandText
import RtxKernel.Process.KcdScript
import RtxKernel.Process.Serial

/-!
# The terminal

The keyboard decoder and the processes of `io/crt.c` and `io/uart.c`, all three running their code, among other
processes and interrupts. What is typed comes to the decoder, what the decoder sends to the CRT process is the echo
of its inputs, and what is written to the port are the texts that have come to the CRT process.
-/

namespace RtxKernel

open Script

/-- The text of a message, as far as it stands in the message -/
def IoMessage.text (m : IoMessage) : List UInt8 := textFrom m.msg msgSize 0

/-- The message for the character `c` -/
def charMessage (c : UInt8) : IoMessage := ⟨crtPid, uartPid, 0, Function.update IoMessage.blank.msg 0 c⟩

def charSend (c : UInt8) : Send := ⟨uartPid, charMessage c⟩

/-! ### The code -/

/-- The character `msg->msg[i]` is sent to the UART process. -/
def sendChar (msg i : Nat) : Script Unit := do
  let uartMsg ← request
  store32 (txField uartMsg) crtPid
  store32 (rxField uartMsg) uartPid
  let c ← loadMsg msg i
  storeMsg uartMsg 0 c
  let _ ← send uartPid uartMsg

/-- The loop of `crt` from the index `i` on, for at most `n` turns -/
def printFrom (msg : Nat) : Nat → Nat → Script Unit
  | 0, _ => fail
  | n + 1, i => do
    let c ← loadMsg msg i
    if c = 0 then return () else
      sendChar msg i
      printFrom msg n (i + 1)

/-- `crt` -/
def crt : Process Unit where
  pid := crtPid
  start := return ()
  turn _ msg := do
    printFrom msg addressSpace 0
    let _ ← release msg

/-- `uart` -/
def uart : Process Unit where
  pid := uartPid
  start := return ()
  turn _ msg := do
    let charOut ← loadMsg msg 0
    let _ ← release msg
    write charOut

/-- The processes of the terminal -/
inductive Io
  | kcd
  | crt
  | uart
  deriving DecidableEq

namespace Io

instance : Fintype Io := ⟨{kcd, crt, uart}, fun i => by cases i <;> decide⟩

abbrev State : Io → Type
  | kcd => Kcd
  | crt | uart => Unit

/-- The three processes, with what stands behind the buffer of the decoder -/
def process (behind : Memory) : ∀ i, Process (State i)
  | kcd => Kcd.process behind
  | crt => RtxKernel.crt
  | uart => RtxKernel.uart

def pid : Io → UInt32
  | kcd => kcdPid
  | crt => crtPid
  | uart => uartPid

/-- What the processes send -/
def Allowed : Io → Deed → Prop
  | kcd, .sent call => call.processId ≠ uartPid ∧ (call.processId = crtPid → Ends call.message.msg 0 msgSize)
  | crt, .sent call => call.processId = uartPid
  | _, _ => False

end Io

/-! ### The CRT process -/

section Crt

variable {allowed : Deed → Prop} {v : View} {e i n : Nat} {m : IoMessage} {U : Unit → View → Prop}

lemma wp_sendChar (h : v.Has e m) (hi : i < msgSize) (hall : ∀ c, allowed (.sent (charSend c)))
    (hU : ∀ w, w.Has e m → w.deeds = v.deeds ++ [.sent (charSend (m.msg i))] → U () w) :
    (sendChar e i).wp (contract allowed) U v := by
  simp only [sendChar, Program.wp_bind]
  refine wp_request ?_
  intro x v₀ h₀
  have hapart := h₀.apart e h.held
  have hne : e ≠ x := by
    rintro rfl
    simp only [memBlockSize] at hapart
    omega
  have he₀ : v₀.Has e m := h.of_frame (h₀.held ▸ List.mem_cons_of_mem _ h.held) h₀.frame hapart
  refine h₀.has.setTx ?_
  intro v₁ h₁
  have he₁ : v₁.Has e m := he₀.of_frame (h₁.held ▸ he₀.held) h₁.frame hapart
  refine h₁.has.setRx ?_
  intro v₂ h₂
  have he₂ : v₂.Has e m := he₁.of_frame (h₂.held ▸ he₁.held) h₂.frame hapart
  refine he₂.loadMsg hi ?_
  refine h₂.has.storeMsg (by decide) ?_
  intro v₃ h₃
  have he₃ : v₃.Has e m := he₂.of_frame (h₃.held ▸ he₂.held) h₃.frame hapart
  refine wp_send h₃.has (hall (m.msg i)) ?_
  intro code w hw
  refine hU w ⟨?_, ?_⟩ ?_
  · rw [hw.held]
    exact List.mem_filter.mpr ⟨he₃.held, by simpa using hne⟩
  · rw [hw.memory]
    exact he₃.message
  · rw [hw.deeds, h₃.deeds, h₂.deeds, h₁.deeds, h₀.deeds]
    rfl

/-- The text is sent, one character after another. -/
lemma wp_printFrom (h : v.Has e m) (hends : Ends m.msg i (msgSize - i)) (hn : msgSize - i ≤ n)
    (hall : ∀ c, allowed (.sent (charSend c)))
    (hU : ∀ w, w.Has e m →
      w.deeds = v.deeds ++ (textFrom m.msg (msgSize - i) i).map (fun c => .sent (charSend c)) → U () w) :
    (printFrom e n i).wp (contract allowed) U v := by
  induction n generalizing i v with
  | zero => exact absurd hends.pos (by omega)
  | succ n ih =>
    have hi : i < msgSize := by
      have := hends.pos
      omega
    obtain ⟨k, hk⟩ : ∃ k, msgSize - i = k + 1 := Nat.exists_eq_add_one_of_ne_zero (by omega)
    rw [printFrom, Program.wp_bind]
    refine h.loadMsg hi ?_
    by_cases hc : m.msg i = 0
    · rw [if_pos hc]
      refine hU v h ?_
      rw [textFrom_of_zero hc, List.map_nil, List.append_nil]
    · rw [if_neg hc, Program.wp_bind]
      refine wp_sendChar h hi hall ?_
      intro w hw hdeeds
      rw [hk] at hends hU
      have hk' : msgSize - (i + 1) = k := by omega
      refine ih hw (hk'.symm ▸ hends.succ hc) (by omega) ?_
      intro w' hw' hdeeds'
      refine hU w' hw' ?_
      rw [hdeeds', hdeeds, hk', textFrom_of_ne hc, List.map_cons, List.append_assoc]
      rfl

/-- The messages are texts that end. -/
theorem crt_correct (hall : ∀ c, allowed (.sent (charSend c))) :
    crt.Correct allowed (fun _ m => Ends m.msg 0 msgSize)
      fun ms _ deeds => deeds = (ms.flatMap IoMessage.text).map fun c => .sent (charSend c) where
  start := fun v _ hdeeds => hdeeds
  turn := by
    intro ms m q e v hJ hends he hm
    simp only [crt, Program.wp_bind]
    refine wp_printFrom ⟨he, hm⟩ hends (by decide) hall ?_
    intro w hw hdeeds
    refine wp_release hw.held ?_
    intro code w' hw'
    have hnow : w'.deeds = (((ms ++ [m]).flatMap IoMessage.text).map fun c => .sent (charSend c)) := by
      rw [hw'.deeds, hdeeds, hJ, List.append_nil, List.flatMap_append, List.map_append, List.flatMap_singleton]
      rfl
    exact hnow

theorem uart_correct : uart.Correct allowed (fun _ _ => True)
    fun ms _ deeds => deeds = ms.map fun m => .written (m.msg 0) where
  start := fun v _ hdeeds => hdeeds
  turn := by
    intro ms m q e v hJ _ he hm
    have h : v.Has e m := ⟨he, hm⟩
    simp only [uart, Program.wp_bind]
    refine h.loadMsg (by decide) ?_
    refine wp_release he ?_
    intro code w hw
    refine wp_write ?_
    have hnow : w.deeds ++ [.written (m.msg 0)] = (ms ++ [m]).map fun m => Deed.written (m.msg 0) := by
      rw [hw.deeds, hJ, List.append_nil, List.map_append]
      rfl
    exact hnow

end Crt

/-! ### What the screen is to show -/

section Shown

variable {mem : Memory} {n i : Nat} {t : List UInt8} {d : Console} {x : Input} {xs : List Input} {out : List Send}
  {outs : List (List Send)} {call : Send}

lemma text_of_stringAt (h : StringAt mem i t) (hn : t.length < n) : textFrom mem n i = t := by
  induction t generalizing n i with
  | nil => exact textFrom_of_zero (StringAt.nil_iff.mp h)
  | cons c t ih =>
    obtain ⟨n, rfl⟩ : ∃ k, n = k + 1 := Nat.exists_eq_add_one_of_ne_zero (Nat.ne_of_gt (Nat.zero_lt_of_lt hn))
    obtain ⟨hc, hne, hrest⟩ := h
    rw [textFrom_of_ne (hc ▸ hne), hc, ih hrest (Nat.lt_of_succ_lt_succ hn)]

/-- What is to be shown for an input -/
def Input.shown : Input → List UInt8
  | .key c => echo c
  | .clear => [0x0c]
  | .register _ _ | .ignored => []

/-- The text of the calls to the CRT process -/
def screenText (out : List Send) : List UInt8 :=
  (out.filter fun call => call.processId = crtPid).flatMap fun call => call.message.text

lemma screenText_append {out' : List Send} : screenText (out ++ out') = screenText out ++ screenText out' := by
  rw [screenText, List.filter_append, List.flatMap_append]
  rfl

lemma screenText_of_sends (h : Sends call crtPid t) (ht : t.length < msgSize) : screenText [call] = t := by
  rw [screenText, List.filter_cons_of_pos (by simpa using h.processId), List.filter_nil, List.flatMap_singleton]
  exact text_of_stringAt h.text ht

/-- The answer to an input shows it. -/
lemma screenText_of_answers (h : Answers d x out) (hready : d.Ready x) (hd : ∀ r ∈ d.commands, r.2 ≠ crtPid) :
    screenText out = x.shown := by
  cases x with
  | register name pid =>
    obtain rfl := h
    rfl
  | ignored =>
    obtain rfl := h
    rfl
  | clear =>
    obtain ⟨call, rfl, hcall⟩ := h
    exact screenText_of_sends hcall (by decide)
  | key c =>
    obtain ⟨call, commands, rfl, hcall, hnone, hcommands⟩ := h
    have hfirst := screenText_of_sends hcall (Kcd.echo_length c)
    rw [← List.singleton_append, screenText_append, hfirst, Input.shown, List.append_right_eq_self]
    by_cases hc : c = 0x0d
    · cases hl : d.line with
      | none =>
        rw [hnone (.inr hl)]
        rfl
      | some line =>
        obtain ⟨hcn, hcs⟩ := hcommands line hc hl (hready line hc hl)
        cases ht : d.target line with
        | none =>
          rw [hcn ht]
          rfl
        | some pid =>
          -- the command is for a process that has registered it
          obtain ⟨call₁, rfl, hsends, -⟩ := hcs pid ht
          obtain ⟨r, hr, rfl⟩ := Option.map_eq_some_iff.mp ht
          have hne : call₁.processId ≠ crtPid := hsends.processId ▸ hd r (List.mem_of_find?_eq_some hr)
          rw [screenText, List.filter_cons_of_neg (by simpa using hne)]
          rfl
    · rw [hnone (.inl hc)]
      rfl

lemma screenText_of_answered (h : Answered d xs outs) (hready : d.AllReady xs) (hd : ∀ r ∈ d.commands, r.2 ≠ crtPid)
    (hxs : ∀ name pid, .register name pid ∈ xs → pid ≠ crtPid) :
    screenText outs.flatten = xs.flatMap Input.shown := by
  induction h with
  | nil => rfl
  | @cons d x xs out outs hx _ ih =>
    have hfirst : ∀ name pid, .register name pid ∈ [x] → pid ≠ crtPid :=
      fun name pid h => hxs name pid (List.mem_cons.mpr (.inl (List.mem_singleton.mp h)))
    have hd' : ∀ r ∈ (d.next x).commands, r.2 ≠ crtPid := Kcd.registered hd hfirst
    rw [List.flatten_cons, screenText_append, screenText_of_answers hx hready.1 hd, List.flatMap_cons,
      ih hready.2 hd' fun name pid h => hxs name pid (List.mem_cons_of_mem _ h)]

end Shown

/-! ### The three processes in the system -/

namespace Io

variable {behind : Memory} {priority : Fin 6 → UInt8} {base : Nat} {k₀ : Kernel} {s : Scripted State}
  {ops : List (Scripted.Action Io)} {xs : List Input} {m : IoMessage} {l : List IoMessage} {ms : List IoMessage}

/-- A process that registers commands is none of the other two. -/
def Registers (pid : UInt32) : Prop := pid ≠ crtPid ∧ pid ≠ uartPid

/-- The messages that the processes can take -/
def Fits : Io → List IoMessage → IoMessage → Prop
  | kcd => Kcd.Fits Registers
  | crt => fun _ m => Ends m.msg 0 msgSize
  | uart => fun _ _ => True

/-- What the processes have done with the messages that they have received -/
def Has (behind : Memory) : ∀ i, List IoMessage → State i → List Deed → Prop
  | kcd => Kcd.Answering behind
  | crt => fun ms _ deeds => deeds = (ms.flatMap IoMessage.text).map fun c => .sent (charSend c)
  | uart => fun ms _ deeds => deeds = ms.map fun m => .written (m.msg 0)

/-- What is written to the port -/
def portWrites (l : List Deed) : List UInt8 :=
  l.filterMap fun
    | .written c => some c
    | _ => none

def output (s : Scripted State) : List UInt8 := portWrites (s.deeds uart)

lemma portWrites_prefix {l l' : List Deed} (h : l <+: l') : portWrites l <+: portWrites l' := h.filterMap _

lemma portWrites_map : portWrites (ms.map fun m => .written (m.msg 0)) = ms.map fun m => m.msg 0 := by
  rw [portWrites, List.filterMap_map]
  exact congrFun List.filterMap_eq_map ms

theorem correct (i : Io) : (process behind i).Correct (Allowed i) (Fits i) (Has behind i) := by
  cases i with
  | crt => exact crt_correct fun _ => rfl
  | uart => exact uart_correct
  | kcd =>
    refine Kcd.correct ⟨by decide, by decide⟩ ?_
    intro call hgoes
    refine ⟨?_, ?_⟩
    · by_cases hcrt : call.processId = crtPid
      · rw [hcrt]
        decide
      · exact (hgoes.elsewhere hcrt).2
    · intro hcrt
      rcases hgoes.screen hcrt with hP | ⟨t, ht, htext⟩
      · exact absurd rfl hP.1
      · exact ends_of_stringAt htext ht

lemma process_pid (behind : Memory) (i : Io) : (process behind i).pid = pid i := by
  cases i <;> rfl

lemma pid_injective : Function.Injective pid := by
  intro i j hij
  revert hij
  cases i <;> cases j <;> decide

/-- A message for one of the processes that was not typed and is from none of the others is from the decoder or from
the CRT process. -/
lemma origin_cases (h : Scripted.Origin (process behind) Allowed m) :
    (∃ tx c, m = typedMessage tx c) ∨ (∃ call : Send, m = call.signed kcdPid ∧ Allowed kcd (.sent call)) ∨
      (∃ call : Send, m = call.signed crtPid ∧ call.processId = uartPid) ∨ ∀ i, m.tx ≠ pid i := by
  cases h with
  | typed tx c hm => exact .inl ⟨tx, c, hm⟩
  | own i call hm hallowed =>
    cases i with
    | kcd => exact .inr (.inl ⟨call, hm, hallowed⟩)
    | crt => exact .inr (.inr (.inl ⟨call, hm, hallowed⟩))
    | uart => exact hallowed.elim
  | later h =>
    cases h with
    | other hne => exact .inr (.inr (.inr fun i => process_pid behind i ▸ hne i))
    | own i call delay hm hallowed => cases i <;> exact hallowed.elim

/-- A registration is not from the other two processes. -/
lemma registers (h : Scripted.Origin (process behind) Allowed m) (hrx : m.rx = kcdPid)
    (htype : m.type = typeRegisterCmd) : Registers m.tx := by
  rcases origin_cases h with ⟨tx, c, rfl⟩ | ⟨call, rfl, -⟩ | ⟨call, rfl, hpid⟩ | hne
  · cases htype
  · exact ⟨show kcdPid ≠ crtPid by decide, show kcdPid ≠ uartPid by decide⟩
  · have hboth : uartPid = kcdPid := hpid.symm.trans hrx
    cases hboth
  · exact ⟨hne crt, hne uart⟩

lemma registers_of_carries (behind : Memory)
    (hall : ∀ m ∈ ms, Scripted.Origin (process behind) Allowed m ∧ m.rx = kcdPid)
    (hms : List.Forall₂ Carries ms xs) : ∀ name pid, .register name pid ∈ xs → Registers pid := by
  induction hms with
  | nil => simp
  | @cons m x ms xs hx _ ih =>
    intro name pid hmem
    rcases List.mem_cons.mp hmem with rfl | hmem
    · obtain ⟨horigin, hrx⟩ := hall m List.mem_cons_self
      cases hx with
      | register w htype => exact registers horigin hrx htype
    · exact ih (fun m hm => hall m (List.mem_cons_of_mem _ hm)) name pid hmem

/-- A text for the CRT process ends. -/
lemma ends_of_origin (h : Scripted.Origin (process behind) Allowed m) (hrx : m.rx = crtPid)
    (hothers : (∀ i, m.tx ≠ pid i) → Ends m.msg 0 msgSize) : Ends m.msg 0 msgSize := by
  rcases origin_cases h with ⟨tx, c, rfl⟩ | ⟨call, rfl, hallowed⟩ | ⟨call, rfl, hpid⟩ | hne
  · cases hrx
  · exact hallowed.2 hrx
  · have hboth : uartPid = crtPid := hpid.symm.trans hrx
    cases hboth
  · exact hothers hne

lemma mem_of_fits {pid : UInt32} (hpre : ms ++ [m] <+: l.filter fun m => m.rx = pid) :
    ∀ m' ∈ ms ++ [m], m' ∈ l ∧ m'.rx = pid := by
  intro m' hm'
  obtain ⟨hmem, hrx⟩ := List.mem_filter.mp (hpre.subset hm')
  exact ⟨hmem, of_decide_eq_true hrx⟩

/-- The messages that come in fit, if what the others send does. -/
lemma allFit (hms : List.Forall₂ Carries (s.arrived kcdPid) xs) (hready : Console.start.AllReady xs)
    (htexts : ∀ m ∈ s.arrived crtPid, (∀ i, m.tx ≠ pid i) → Ends m.msg 0 msgSize)
    (hl : l <+: s.mail) (hall : Scripted.AllMail (process behind) Allowed l) (i : Io) :
    AllFit (Fits i) (l.filter fun m => m.rx = (process behind i).pid) := by
  intro ms m hpre
  have hmem := mem_of_fits hpre
  have hpre' := hpre.trans (hl.filter _)
  cases i with
  | uart => trivial
  | crt =>
    obtain ⟨hm, hrx⟩ := hmem m (List.mem_append_right _ (List.mem_singleton_self m))
    refine ends_of_origin (hall m hm crt hrx) hrx (htexts m ?_)
    exact hpre'.subset (List.mem_append_right _ (List.mem_singleton_self m))
  | kcd =>
    have htake := List.forall₂_take (ms ++ [m]).length hms
    have hprefix : ms ++ [m] <+: s.arrived kcdPid := hpre'
    rw [← List.prefix_iff_eq_take.mp hprefix] at htake
    refine ⟨_, htake, ?_, ?_⟩
    · rw [← List.take_append_drop (ms ++ [m]).length xs] at hready
      exact (Kcd.allReady_append.mp hready).1
    · refine registers_of_carries behind ?_ htake
      intro m' hm'
      exact ⟨hall m' (hmem m' hm').1 kcd (hmem m' hm').2, (hmem m' hm').2⟩

/-- The three processes run as their code says. -/
lemma runs (hprio : ∀ i, priority i ≤ 4) (hbase : base ≠ 0) (hboot : boot priority base = some k₀)
    (hrun : Run (Scripted.Step (process behind)) (Scripted.start (process behind) k₀) ops s)
    (htexts : ∀ m ∈ s.arrived crtPid, (∀ i, m.tx ≠ pid i) → Ends m.msg 0 msgSize)
    (hms : List.Forall₂ Carries (s.arrived kcdPid) xs) (hready : Console.start.AllReady xs) :
    (∀ i, s.AsCode (process behind) (Has behind) i) ∧ ∃ a, s.Delivers (process behind) Allowed a := by
  have hinj : Function.Injective fun i => (process behind i).pid := by
    simpa only [process_pid] using pid_injective
  refine Scripted.runs_as_code correct hprio hbase hboot ?_ ?_ hinj hrun fun l hl hall i =>
    allFit hms hready htexts hl hall i
  · intro i
    rw [process_pid]
    cases i <;> simp [pid, initBlocks, kcdPid, crtPid, uartPid]
  · intro i
    rw [process_pid]
    cases i <;> decide

/-! ### What is typed and what is shown -/

lemma forall₂_sublist {α β : Type} {R : α → β → Prop} {l l' : List α} {zs : List β} (h : l.Sublist l')
    (hR : List.Forall₂ R l' zs) : ∃ ys, ys.Sublist zs ∧ List.Forall₂ R l ys := by
  induction hR generalizing l with
  | nil =>
    obtain rfl := List.sublist_nil.mp h
    exact ⟨[], .slnil, .nil⟩
  | @cons a b l' zs hab _ ih =>
    cases h with
    | cons _ h =>
      obtain ⟨ys, hys, hR⟩ := ih h
      exact ⟨ys, hys.cons b, hR⟩
    | cons_cons _ h =>
      obtain ⟨ys, hys, hR⟩ := ih h
      exact ⟨b :: ys, hys.cons_cons b, .cons hab hR⟩

/-- A character that was typed is an input. -/
lemma carries_typed {tx : UInt32} {c : UInt8} {x : Input} (h : Carries (typedMessage tx c) x) : x = .key c := by
  cases h with
  | register w htype => cases htype
  | ignored htype => cases htype
  | key htype hz => rfl
  | clear line htype hline hclr =>
    have hone := (clear_chars hline hclr).1
    cases hone

lemma typed_sublist (h : s.TypedMail) (hms : List.Forall₂ Carries (s.arrived kcdPid) xs) :
    (s.typed.map Input.key).Sublist xs := by
  obtain ⟨l, hl, htyped⟩ := h
  obtain ⟨ys, hys, hcarries⟩ := forall₂_sublist hl hms
  have heq : s.typed.map Input.key = ys := by
    clear hl hys
    generalize s.typed = t at htyped
    induction htyped generalizing ys with
    | nil =>
      cases hcarries
      rfl
    | cons hm _ ih =>
      obtain ⟨tx, rfl⟩ := hm
      cases hcarries with
      | cons hx hrest => rw [List.map_cons, carries_typed hx, ih _ hrest]
  exact heq ▸ hys

/-- The messages for the UART process are the characters of the texts that the CRT process has received. -/
lemma uart_arrived (hcrt : s.AsCode (process behind) (Has behind) crt)
    (hall : Scripted.AllMail (process behind) Allowed s.mail) (hch : s.Channel (process behind) crt uart)
    (hothers : ∀ m ∈ s.arrived uartPid, ∃ i, m.tx = pid i) :
    (s.arrived uartPid).map (fun m => m.msg 0) <+: (s.received crt).flatMap IoMessage.text := by
  have hfrom : ∀ m ∈ s.arrived uartPid, m.tx = crtPid := by
    intro m hm
    obtain ⟨hmem, hrx⟩ := List.mem_filter.mp hm
    have hrx : m.rx = uartPid := of_decide_eq_true hrx
    rcases origin_cases (hall m hmem uart hrx) with ⟨tx, c, rfl⟩ | ⟨call, rfl, hallowed⟩ | ⟨call, rfl, -⟩ | hne
    · cases hrx
    · exact absurd hrx hallowed.1
    · rfl
    · obtain ⟨i, hi⟩ := hothers m hm
      exact absurd hi (hne i)
  have hchan : s.arrived uartPid =
      (Scripted.sentTo uartPid (s.deeds crt)).map fun call => call.signed crtPid := by
    refine Eq.trans ?_ hch
    exact (List.filter_eq_self.mpr fun m hm => decide_eq_true (hfrom m hm)).symm
  obtain ⟨q, l, hdone, hpre⟩ := hcrt.within
  have hsent : ∀ t : List UInt8, (Scripted.sentTo uartPid (t.map fun c => .sent (charSend c))).map
      (fun call => (call.signed crtPid).msg 0) = t := by
    intro t
    induction t with
    | nil => rfl
    | cons c t ih => exact congrArg (c :: ·) ih
  have hdeeds : l = ((s.received crt).flatMap IoMessage.text).map fun c => .sent (charSend c) := hdone
  rw [hchan, List.map_map]
  have hmap := (Scripted.sentTo_prefix uartPid hpre).map fun call => (call.signed crtPid).msg 0
  rwa [hdeeds, hsent] at hmap

lemma sentTo_calls {dest : UInt32} {out : List Send} :
    Scripted.sentTo dest (out.map .sent) = out.filter fun call => call.processId = dest := by
  induction out with
  | nil => rfl
  | cons call out ih =>
    have hcons : Scripted.sentTo dest ((call :: out).map .sent) =
        Scripted.sentTo dest [.sent call] ++ Scripted.sentTo dest (out.map .sent) :=
      Scripted.sentTo_append (l := [.sent call])
    rw [hcons, ih]
    by_cases hcall : call.processId = dest
    · simp [Scripted.sentTo, hcall]
    · simp [Scripted.sentTo, hcall]

/-- The decoder answers the inputs that it has received. -/
lemma answered {outs : List (List Send)} {q : Kcd} (hpre : s.received kcd <+: s.arrived kcdPid)
    (hrun : (Kcd.start behind).run (s.received kcd) = some (q, outs))
    (hms : List.Forall₂ Carries (s.arrived kcdPid) xs) :
    Answered Console.start (xs.take (s.received kcd).length) outs := by
  have htake := List.forall₂_take (s.received kcd).length hms
  rw [← List.prefix_iff_eq_take.mp hpre] at htake
  exact (Tracks.start.run htake hrun).2

/-- What has come to the CRT process from the decoder is the echo. -/
lemma crt_arrived (hkcd : s.AsCode (process behind) (Has behind) kcd) (hch : s.Channel (process behind) kcd crt)
    (hms : List.Forall₂ Carries (s.arrived kcdPid) xs) (hready : Console.start.AllReady xs)
    (hxs : ∀ name pid, .register name pid ∈ xs → Registers pid) :
    ((s.arrived crtPid).filter fun m => m.tx = kcdPid).flatMap IoMessage.text <+: xs.flatMap Input.shown := by
  obtain ⟨q, l, ⟨outs, hrun, hl⟩, hpre⟩ := hkcd.within
  have hanswered := answered hkcd.received hrun hms
  have hsplit := List.take_append_drop (s.received kcd).length xs
  rw [← hsplit] at hready
  have hshown := screenText_of_answered hanswered (Kcd.allReady_append.mp hready).1
    (by
      intro r hr
      obtain rfl := List.mem_singleton.mp hr
      exact show kcdPid ≠ crtPid by decide)
    fun name pid h => (hxs name pid (List.mem_of_mem_take h)).1
  have hsent := Scripted.sentTo_prefix crtPid hpre
  rw [hl, sentTo_calls] at hsent
  have htext := hsent.flatMap fun call => call.message.text
  have hsame : ((s.arrived crtPid).filter fun m => m.tx = kcdPid).flatMap IoMessage.text =
      (Scripted.sentTo crtPid (s.deeds kcd)).flatMap fun call => call.message.text := by
    have hch' : (s.arrived crtPid).filter (fun m => m.tx = kcdPid) =
        (Scripted.sentTo crtPid (s.deeds kcd)).map fun call => call.signed kcdPid := hch
    rw [hch', List.flatMap_map]
    rfl
  rw [hsame]
  refine htext.trans ?_
  have hscreen : ((outs.flatten.filter fun call => call.processId = crtPid).flatMap fun call => call.message.text) =
      (xs.take (s.received kcd).length).flatMap Input.shown := hshown
  rw [hscreen]
  exact (List.take_prefix _ _).flatMap _

/-- The character `A` is typed, and the three processes run. -/
def typeA : List (Scripted.Action Io) :=
  [.call (.uart 0x41)] ++ List.replicate 17 (.own kcd) ++ List.replicate 17 (.own crt) ++ List.replicate 4 (.own uart)

/-- What there is to see of a state: the port, the senders to the other two processes, the messages to the decoder,
and whether it waits and how much it has done -/
structure Seen where
  output : List UInt8
  toUart : List UInt32
  toCrt : List UInt32
  toKcd : List (UInt32 × List UInt8)
  waits : Bool
  received : Nat
  deeds : Nat
  deriving DecidableEq

def seen (s : Scripted State) : Seen where
  output := output s
  toUart := (s.arrived uartPid).map IoMessage.tx
  toCrt := (s.arrived crtPid).map IoMessage.tx
  toKcd := (s.arrived kcdPid).map fun m => (m.type, (List.range 64).map m.msg)
  waits := (s.code kcd).isDone
  received := (s.received kcd).length
  deeds := (s.deeds kcd).length

lemma seen_typeA : ∃ k₀ s, boot (fun _ => 2) 4096 = some k₀ ∧
    Run (Scripted.Step (process fun _ => 0)) (Scripted.start (process fun _ => 0) k₀) typeA s ∧ output s = [0x41] ∧
      (∀ m ∈ s.arrived uartPid, m.tx = crtPid) ∧ (∀ m ∈ s.arrived crtPid, m.tx = kcdPid) ∧
      List.Forall₂ Carries (s.arrived kcdPid) [.key 0x41] ∧
      (∃ q, s.code kcd = .done q) ∧ (s.received kcd).length = 1 ∧ (s.deeds kcd).length = 1 := by
  have hrun : ((boot (fun _ => 2) 4096).bind fun k =>
      typeA.foldlM (Scripted.step (process fun _ => 0)) (Scripted.start (process fun _ => 0) k)).map seen =
      some ⟨[0x41], [crtPid], [kcdPid], [(0, 0x41 :: List.replicate 63 0)], true, 1, 1⟩ := by
    decide +kernel
  obtain ⟨k₀, s, hboot, hrun, hseen⟩ := Scripted.exists_run_of_seen hrun
  obtain ⟨hout, huart, hcrt, hkcd, hdone, hreceived, hdeeds⟩ := Seen.mk.inj hseen
  refine ⟨k₀, s, hboot, hrun, hout, ?_, ?_, ?_, Program.exists_done_of_isDone hdone, hreceived, hdeeds⟩
  · intro m hm
    have htx := List.mem_map_of_mem (f := IoMessage.tx) hm
    rw [huart] at htx
    exact List.mem_singleton.mp htx
  · intro m hm
    have htx := List.mem_map_of_mem (f := IoMessage.tx) hm
    rw [hcrt] at htx
    exact List.mem_singleton.mp htx
  · obtain ⟨m, hm, hfields⟩ := List.map_eq_singleton_iff.mp hkcd
    obtain ⟨htype, hmsg⟩ := Prod.mk.inj hfields
    have hget : ∀ i < 64, m.msg i = (0x41 :: List.replicate 63 0).getD i 0 := by
      intro i hi
      rw [← hmsg, List.getD_eq_getElem _ _ (by simpa using hi), List.getElem_map, List.getElem_range]
    have hkey : Carries m (.key (m.msg 0)) := by
      refine .key (by rw [htype]; decide) ?_
      intro i hpos hi
      obtain ⟨j, rfl⟩ := Nat.exists_eq_add_one_of_ne_zero (Nat.ne_of_gt hpos)
      rw [hget _ hi, List.getD_cons_succ]
      exact List.getD_replicate _ (Nat.lt_of_succ_lt_succ hi)
    rw [hget 0 (by decide)] at hkey
    rw [hm]
    exact .cons hkey .nil

/-- From the keyboard to the port, in every state that is reached: the characters that were typed are inputs of the
decoder, in their order; what has come to the CRT process from the decoder is the echo of its inputs; what is
written to the port are the texts that have come to the CRT process, one after another; and no process of the three
is ever stuck. Nobody else sends to the UART process, the texts that others send to the CRT process end, every message
that comes in for the decoder is an input (`Carries`), and the lines that are entered fit the buffer. -/
theorem terminal_echoes (hprio : ∀ i, priority i ≤ 4) (hbase : base ≠ 0) (hboot : boot priority base = some k₀)
    (hrun : Run (Scripted.Step (process behind)) (Scripted.start (process behind) k₀) ops s)
    (hothers : ∀ m ∈ s.arrived uartPid, ∃ i, m.tx = pid i)
    (htexts : ∀ m ∈ s.arrived crtPid, (∀ i, m.tx ≠ pid i) → Ends m.msg 0 msgSize)
    (hms : List.Forall₂ Carries (s.arrived kcdPid) xs) (hready : Console.start.AllReady xs) :
    (s.typed.map Input.key).Sublist xs ∧
      ((s.arrived crtPid).filter fun m => m.tx = kcdPid).flatMap IoMessage.text <+: xs.flatMap Input.shown ∧
      output s <+: (s.arrived crtPid).flatMap IoMessage.text ∧
      ∀ i, s.kernel.currentPid = pid i → ∃ t, Scripted.Step (process behind) s (.own i) t := by
  obtain ⟨hcode, a, hdel⟩ := runs hprio hbase hboot hrun htexts hms hready
  have hnd : ∀ i j call delay, Allowed i (.delayed call delay) → call.processId ≠ (process behind j).pid := by
    intro i j call delay h
    cases i <;> exact h.elim
  have hregisters : ∀ name pid, .register name pid ∈ xs → Registers pid := by
    refine registers_of_carries behind ?_ hms
    intro m hm
    obtain ⟨hmem, hrx⟩ := List.mem_filter.mp hm
    exact ⟨hdel.mail m hmem kcd (of_decide_eq_true hrx), of_decide_eq_true hrx⟩
  refine ⟨typed_sublist hdel.typed hms, ?_, ?_, ?_⟩
  · have hch := hdel.channel kcd crt (show crtPid ≠ kcdPid by decide) (hnd kcd crt)
    exact crt_arrived (hcode kcd) hch hms hready hregisters
  · have hport : output s <+: (s.arrived uartPid).map fun m => m.msg 0 := by
      obtain ⟨q, l, hdone, hpre⟩ := (hcode uart).within
      have hl : l = (s.received uart).map fun m => .written (m.msg 0) := hdone
      have hwritten := portWrites_prefix hpre
      rw [hl, portWrites_map] at hwritten
      exact hwritten.trans ((hcode uart).received.map _)
    refine hport.trans ((uart_arrived (hcode crt) hdel.mail ?_ hothers).trans ?_)
    · exact hdel.channel crt uart (show uartPid ≠ kcdPid by decide) (hnd crt uart)
    · exact (hcode crt).received.flatMap _
  · intro i hi
    exact (hcode i).goesOn (process_pid behind i ▸ hi)

/-- The character comes out at the port. -/
theorem terminal_echoes_typeA : ∃ k₀ s, boot (fun _ => 2) 4096 = some k₀ ∧
    Run (Scripted.Step (process fun _ => 0)) (Scripted.start (process fun _ => 0) k₀) typeA s ∧ output s = [0x41] ∧
      output s <+: (s.arrived crtPid).flatMap IoMessage.text := by
  obtain ⟨k₀, s, hboot, hrun, hout, huart, hcrt, hms, -⟩ := seen_typeA
  refine ⟨k₀, s, hboot, hrun, hout, ?_⟩
  refine (terminal_echoes (by decide) (by decide) hboot hrun (fun m hm => ⟨crt, huart m hm⟩) ?_ hms ?_).2.2.1
  · intro m hm hne
    exact absurd (hcrt m hm) (hne kcd)
  · refine ⟨?_, trivial⟩
    intro line hr
    cases hr

/-- The decoder in the system, in every state that is reached: it has received its messages in their order, and has
answered them, when it waits for the next one, and a part of the answers before. The texts that others send to the
CRT process end, every message that comes in for the decoder is an input (`Carries`), and the lines that are entered
fit the buffer. -/
theorem decoder_answers (hprio : ∀ i, priority i ≤ 4) (hbase : base ≠ 0) (hboot : boot priority base = some k₀)
    (hrun : Run (Scripted.Step (process behind)) (Scripted.start (process behind) k₀) ops s)
    (htexts : ∀ m ∈ s.arrived crtPid, (∀ i, m.tx ≠ pid i) → Ends m.msg 0 msgSize)
    (hms : List.Forall₂ Carries (s.arrived kcdPid) xs) (hready : Console.start.AllReady xs) :
    s.received kcd <+: s.arrived kcdPid ∧
      ∃ outs, Answered Console.start (xs.take (s.received kcd).length) outs ∧
        s.deeds kcd <+: outs.flatten.map .sent ∧
        ∀ q, s.code kcd = .done q → s.deeds kcd = outs.flatten.map .sent := by
  obtain ⟨hcode, -⟩ := runs hprio hbase hboot hrun htexts hms hready
  have hpre := (hcode kcd).received
  refine ⟨hpre, ?_⟩
  obtain ⟨q, l, ⟨outs, houts, rfl⟩, hl⟩ := (hcode kcd).within
  refine ⟨outs, answered hpre houts hms, hl, ?_⟩
  intro q' hq'
  obtain ⟨outs', houts', hdeeds⟩ := (hcode kcd).waiting q' hq'
  obtain ⟨-, rfl⟩ := Prod.mk.inj (Option.some.inj (houts.symm.trans houts'))
  exact hdeeds

/-- The decoder has received the character, has answered it, and waits. -/
theorem decoder_answers_typeA : ∃ k₀ s q outs, boot (fun _ => 2) 4096 = some k₀ ∧
    Run (Scripted.Step (process fun _ => 0)) (Scripted.start (process fun _ => 0) k₀) typeA s ∧
      s.code kcd = .done q ∧ (s.received kcd).length = 1 ∧ Answered Console.start [.key 0x41] outs ∧
        s.deeds kcd = outs.flatten.map .sent ∧ (s.deeds kcd).length = 1 := by
  obtain ⟨k₀, s, hboot, hrun, -, -, hcrt, hms, ⟨q, hq⟩, hreceived, hdeeds⟩ := seen_typeA
  have hready : Console.start.AllReady [.key 0x41] := by
    refine ⟨?_, trivial⟩
    intro line hr
    cases hr
  obtain ⟨-, outs, houts, -, hall⟩ := decoder_answers (by decide) (by decide) hboot hrun
    (fun m hm hne => absurd (hcrt m hm) (hne kcd)) hms hready
  rw [hreceived] at houts
  exact ⟨k₀, s, q, outs, hboot, hrun, hq, hreceived, houts, hall q hq, hdeeds⟩

end Io

end RtxKernel
