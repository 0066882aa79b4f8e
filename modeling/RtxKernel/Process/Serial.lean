import RtxKernel.Process.Util
import RtxKernel.Kernel.Outside

/-!
# The serial output

The processes of `io/crt.c` and `io/uart.c` over the kernel, among other processes and interrupts that do
what they like, except that nobody else sends to the UART process or touches an envelope after it was sent,
and that a message for the CRT process ends within its block. Kernel calls run from entry to return, and
between them any process can be switched to.

The characters are followed on their way from the texts of the messages to the port
(`Flow`): what was written, what the UART process has in its hand, what is in the mailbox for it, the rest
of the message that the CRT process prints, and the messages in the mailbox for that one.
-/

namespace RtxKernel

/-- A null stands within the `n` bytes from `a` on. -/
def Ends (m : Memory) (a n : Nat) : Prop := ∃ i < n, m (a + i) = 0

instance (m : Memory) (a n : Nat) : Decidable (Ends m a n) :=
  inferInstanceAs (Decidable (∃ i < n, m (a + i) = 0))

/-- The string at `a`, as far as it stands in `n` bytes -/
def textFrom (m : Memory) : Nat → Nat → List UInt8
  | 0, _ => []
  | n + 1, a => if m a = 0 then [] else m a :: textFrom m n (a + 1)

/-- The text of the message in the envelope `e` -/
def text (m : Memory) (e : Nat) : List UInt8 := textFrom m msgSize (msgField e)

/-- The two processes -/
def serialPids : List UInt32 := [crtPid, uartPid]

/-! ### The programs -/

/-- Where the process `crt` is: before `receive_message`, at the test of the loop for the character `i` of
the message `msg`, or with the block `uartMsg` for this character, of which it has written `j` bytes -/
inductive Crt
  | waiting
  | printing (msg i : Nat)
  | filling (msg i uartMsg j : Nat)

namespace Crt

/-- What is written into the message for the character `c` -/
def stores (uartMsg : Nat) (c : UInt8) : List (Nat × UInt8) :=
  wordBytes (txField uartMsg) crtPid ++ wordBytes (rxField uartMsg) uartPid ++ [(msgField uartMsg, c)]

/-- What the process does next -/
def op (m : Memory) : Crt → Op
  | waiting => .receive
  | printing msg i => if m (msgField msg + i) = 0 then .release msg else .request
  | filling msg i uartMsg j =>
    match (stores uartMsg (m (msgField msg + i)))[j]? with
    | some (x, v) => .store x v
    | none => .send uartPid uartMsg

/-- Where the process is when this was answered with `reply` -/
def next : Crt → Reply → Crt
  | waiting, .envelope (some (e, _)) => printing e 0
  | printing msg i, .block (some uartMsg) => filling msg i uartMsg 0
  | printing _ _, .code _ => waiting
  | filling msg i uartMsg j, .done => filling msg i uartMsg (j + 1)
  | filling msg i _ _, .code _ => printing msg (i + 1)
  | s, _ => s

end Crt

/-- Where the process `uart` is: before `receive_message`, with the message `msg`, or before the write of
the character to the port -/
inductive Uart
  | waiting
  | received (msg : Nat)
  | writing (charOut : UInt8)

namespace Uart

/-- What the process does next: a kernel call, or a write to the port -/
def act : Uart → Op ⊕ UInt8
  | waiting => .inl .receive
  | received msg => .inl (.release msg)
  | writing charOut => .inr charOut

/-- Where the process is when this was answered with `reply`; the character is taken from the message before
its block is returned. -/
def next (m : Memory) : Uart → Reply → Uart
  | waiting, .envelope (some (e, _)) => received e
  | received msg, .code _ => writing (m (msgField msg))
  | s, _ => s

end Uart

/-- The kernel, the two processes, the bytes written to `SERIAL1_WD`, and the texts of the messages for the
CRT process in the order in which they have entered the mailbox -/
structure Serial where
  kernel : Kernel
  crt : Crt
  uart : Uart
  output : List UInt8
  log : List (List UInt8)

namespace Kernel

/-- Nobody else sends to the UART process, and what is sent to the CRT process is a text. -/
def SendsText (k : Kernel) : Op → Prop
  | .send pid e | .delayedSend pid e _ =>
    pid ≠ uartPid ∧ (pid = crtPid → Ends k.pool.memory (msgField e) msgSize)
  | _ => True

instance (k : Kernel) : (op : Op) → Decidable (k.SendsText op)
  | .send pid e | .delayedSend pid e _ => inferInstanceAs (Decidable
      (pid ≠ uartPid ∧ (pid = crtPid → Ends k.pool.memory (msgField e) msgSize)))
  | .releaseProcessor | .block _ | .unblockByPid _ _ | .unblockByType _ | .setPriority _ _
  | .receive | .request | .release _ | .store _ _ | .terminate | .timer | .uart _ => .isTrue trivial

/-- What an interrupt or another process than the two may do -/
def SerialFree (k : Kernel) (op : Op) : Prop := k.Outside serialPids op ∧ k.SendsText op

instance (k : Kernel) (op : Op) : Decidable (k.SerialFree op) :=
  inferInstanceAs (Decidable (k.Outside serialPids op ∧ k.SendsText op))

/-- The texts of the messages for the CRT process that enter the mailbox with an operation -/
def entered (k : Kernel) : Op → Reply → List (List UInt8)
  | .send pid e, .code c => if pid = crtPid ∧ c = 0 then [text k.pool.memory e] else []
  | .timer, .moved es => (es.filter fun e => k.rx e = crtPid).map (text k.pool.memory)
  | _, _ => []

end Kernel

namespace Serial

/-- The running process goes on, if it is one of the two, or something else is done. -/
inductive Action
  | own
  | call (op : Op)

def step (s : Serial) : Action → Option Serial
  | .own =>
    if s.kernel.currentPid = crtPid then
      (s.kernel.call (s.crt.op s.kernel.pool.memory)).map fun (reply, k) =>
        { s with kernel := k, crt := s.crt.next reply }
    else if s.kernel.currentPid = uartPid then
      match s.uart.act with
      | .inl op => (s.kernel.call op).map fun (reply, k) =>
          { s with kernel := k, uart := s.uart.next s.kernel.pool.memory reply }
      | .inr charOut => some { s with uart := .waiting, output := s.output ++ [charOut] }
    else none
  | .call op =>
    if s.kernel.SerialFree op then
      (s.kernel.call op).map fun (reply, k) =>
        { s with kernel := k, log := s.log ++ s.kernel.entered op reply }
    else none

def Step (s : Serial) (x : Action) (t : Serial) : Prop := s.step x = some t

/-- After start-up no process has made a call. -/
def start (k : Kernel) : Serial := ⟨k, .waiting, .waiting, [], []⟩

end Serial

/-! ### Texts -/

section Texts

variable {m m' : Memory} {a n : Nat}

lemma textFrom_congr (h : ∀ x, a ≤ x → x < a + n → m' x = m x) : textFrom m' n a = textFrom m n a := by
  induction n generalizing a with
  | zero => rfl
  | succ n ih =>
    have htail : textFrom m' n (a + 1) = textFrom m n (a + 1) := by
      apply ih
      intro x hx hx'
      exact h x (by omega) (by omega)
    rw [textFrom, textFrom, h a (Nat.le_refl a) (by omega), htail]

lemma Ends.congr (hm : Ends m a n) (h : ∀ x, a ≤ x → x < a + n → m' x = m x) : Ends m' a n := by
  obtain ⟨i, hi, hz⟩ := hm
  exact ⟨i, hi, (h _ (Nat.le_add_right a i) (Nat.add_lt_add_left hi a)).trans hz⟩

lemma Ends.pos (hm : Ends m a n) : 0 < n := by
  obtain ⟨i, hi, -⟩ := hm
  exact Nat.lt_of_le_of_lt (Nat.zero_le i) hi

/-- Behind a character the string goes on. -/
lemma Ends.succ (hm : Ends m a (n + 1)) (hne : m a ≠ 0) : Ends m (a + 1) n := by
  obtain ⟨i, hi, hz⟩ := hm
  cases i with
  | zero => exact absurd hz hne
  | succ i => exact ⟨i, Nat.lt_of_succ_lt_succ hi, by rwa [Nat.add_assoc, Nat.add_comm 1]⟩

lemma textFrom_of_zero (hz : m a = 0) : textFrom m n a = [] := by
  cases n with
  | zero => rfl
  | succ n => rw [textFrom, if_pos hz]

lemma textFrom_of_ne (hne : m a ≠ 0) : textFrom m (n + 1) a = m a :: textFrom m n (a + 1) := by
  rw [textFrom, if_neg hne]

end Texts

end RtxKernel
