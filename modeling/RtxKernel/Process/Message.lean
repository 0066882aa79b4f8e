import RtxKernel.Process.Util

/-!
# The message in an envelope

What a process reads of an envelope, as an `IoMessage`, and what a store into one of its fields does to it.
-/

namespace RtxKernel

/-- The message in the envelope `e` -/
def messageAt (m : Memory) (e : Nat) : IoMessage where
  tx := read32 m (txField e)
  rx := read32 m (rxField e)
  type := typeOf m e
  msg i := if i < msgSize then m (msgField e + i) else 0

/-- What the kernel makes of a message that the process `pid` sends -/
def Send.signed (call : Send) (pid : UInt32) : IoMessage :=
  { call.message with tx := pid, rx := call.processId }

section Messages

variable {m m' : Memory} {e i : Nat} {w : UInt32} {t : List UInt8}

lemma messageAt_congr (h : ∀ x, e ≤ x → x < e + memBlockSize → m' x = m x) : messageAt m' e = messageAt m e := by
  have hword : ∀ a, e ≤ a → a + 4 ≤ e + memBlockSize → read32 m' a = read32 m a := by
    intro a ha ha'
    apply read32_congr
    intro x hx hx'
    exact h x (by omega) (by omega)
  have hsize : memBlockSize = 128 := rfl
  have hmsg : (fun i => if i < msgSize then m' (msgField e + i) else 0) =
      fun i => if i < msgSize then m (msgField e + i) else 0 := by
    funext i
    by_cases hi : i < msgSize
    · rw [if_pos hi, if_pos hi]
      simp only [msgSize] at hi
      exact h _ (by simp only [msgField]; omega) (by simp only [msgField]; omega)
    · rw [if_neg hi, if_neg hi]
  rw [messageAt, messageAt, hmsg, hword (txField e) (by simp [txField]) (by simp only [txField]; omega),
    hword (rxField e) (by simp [rxField]) (by simp only [rxField]; omega), typeOf, typeOf,
    hword (typeField e) (by simp [typeField]) (by simp only [typeField]; omega)]

/-- Outside the header and the text nothing of a message is stored. -/
lemma messageAt_eq (htx : read32 m' (txField e) = read32 m (txField e))
    (hrx : read32 m' (rxField e) = read32 m (rxField e)) (htype : typeOf m' e = typeOf m e) {f : Memory}
    (hmsg : ∀ i, (if i < msgSize then m' (msgField e + i) else 0) = f i) :
    messageAt m' e = { messageAt m e with msg := f } := by
  have hf : (fun i => if i < msgSize then m' (msgField e + i) else 0) = f := funext hmsg
  rw [messageAt, messageAt, htx, hrx, htype, hf]

lemma msg_write32 {a : Nat} (ha : a + 4 ≤ msgField e) :
    (messageAt (write32 m a w) e).msg = (messageAt m e).msg := by
  funext i
  have hframe : write32 m a w (msgField e + i) = m (msgField e + i) := write32_frame (by omega)
  simp only [messageAt, hframe]

lemma messageAt_setTx : messageAt (write32 m (txField e) w) e = { messageAt m e with tx := w } := by
  have hmsg := msg_write32 (m := m) (w := w) (a := txField e) (e := e) (by simp only [txField, msgField]; omega)
  have hrx : read32 (write32 m (txField e) w) (rxField e) = read32 m (rxField e) :=
    read32_write32_of_disjoint (by simp only [txField, rxField]; omega)
  have htype : typeOf (write32 m (txField e) w) e = typeOf m e :=
    read32_write32_of_disjoint (by simp only [txField, typeField]; omega)
  simp only [messageAt] at hmsg ⊢
  rw [hmsg, hrx, htype, read32_write32]

lemma messageAt_setRx : messageAt (write32 m (rxField e) w) e = { messageAt m e with rx := w } := by
  have hmsg := msg_write32 (m := m) (w := w) (a := rxField e) (e := e) (by simp only [rxField, msgField]; omega)
  have htx : read32 (write32 m (rxField e) w) (txField e) = read32 m (txField e) :=
    read32_write32_of_disjoint (by simp only [txField, rxField]; omega)
  have htype : typeOf (write32 m (rxField e) w) e = typeOf m e :=
    read32_write32_of_disjoint (by simp only [rxField, typeField]; omega)
  simp only [messageAt] at hmsg ⊢
  rw [hmsg, htx, htype, read32_write32]

lemma messageAt_setType : messageAt (write32 m (typeField e) w) e = { messageAt m e with type := w } := by
  have hmsg := msg_write32 (m := m) (w := w) (a := typeField e) (e := e) (by simp only [typeField, msgField]; omega)
  have htx : read32 (write32 m (typeField e) w) (txField e) = read32 m (txField e) :=
    read32_write32_of_disjoint (by simp only [txField, typeField]; omega)
  have hrx : read32 (write32 m (typeField e) w) (rxField e) = read32 m (rxField e) :=
    read32_write32_of_disjoint (by simp only [rxField, typeField]; omega)
  simp only [messageAt, typeOf] at hmsg ⊢
  rw [hmsg, htx, hrx, read32_write32]

/-- A text is stored in the field of the text. -/
lemma messageAt_strCopy (h : i + t.length ≤ msgSize) : messageAt (strCopy m t (msgField e + i)) e =
    { messageAt m e with msg := strCopy (messageAt m e).msg t i } := by
  have hword : ∀ a, a + 4 ≤ msgField e → read32 (strCopy m t (msgField e + i)) a = read32 m a := by
    intro a ha
    exact read32_congr fun x _ hx => strCopy_of_lt (by omega)
  apply messageAt_eq
  · exact hword _ (by simp only [txField, msgField]; omega)
  · exact hword _ (by simp only [rxField, msgField]; omega)
  · exact hword _ (by simp only [typeField, msgField]; omega)
  · intro j
    simp only [strCopy, messageAt]
    by_cases hj : i ≤ j ∧ j < i + t.length
    · rw [if_pos (by omega), if_pos (by omega), if_pos hj]
      congr 1
      omega
    · have hout : ¬ (msgField e + i ≤ msgField e + j ∧ msgField e + j < msgField e + i + t.length) := by omega
      rw [if_neg hout, if_neg hj]

lemma messageAt_setText (h : t.length ≤ msgSize) : messageAt (strCopy m t (msgField e)) e =
    { messageAt m e with msg := strCopy (messageAt m e).msg t 0 } := by
  have hcopy := messageAt_strCopy (m := m) (e := e) (t := t) (i := 0) (by omega)
  rwa [Nat.add_zero] at hcopy

lemma messageAt_setMsg {b : UInt8} (hi : i < msgSize) : messageAt (Function.update m (msgField e + i) b) e =
    { messageAt m e with msg := Function.update (messageAt m e).msg i b } := by
  have h := messageAt_strCopy (m := m) (e := e) (t := [b]) (i := i) hi
  rwa [strCopy_cons, strCopy_nil, strCopy_cons, strCopy_nil] at h

/-- The message of a block that was granted -/
lemma messageAt_fill : messageAt (fill m e memBlockSize 0) e = IoMessage.blank := by
  have hword : ∀ a, e ≤ a → a + 4 ≤ e + memBlockSize → read32 (fill m e memBlockSize 0) a = 0 :=
    fun a => read32_fill_zero
  have hsize : memBlockSize = 128 := rfl
  have hmsg : ∀ i, (if i < msgSize then fill m e memBlockSize 0 (msgField e + i) else 0) = 0 := by
    intro i
    by_cases hi : i < msgSize
    · rw [if_pos hi]
      simp only [msgSize] at hi
      exact fill_self (by simp only [msgField]; omega) (by simp only [msgField]; omega)
    · rw [if_neg hi]
  simp only [messageAt, typeOf, hmsg, hword (txField e) (by simp [txField]) (by simp only [txField]; omega),
    hword (rxField e) (by simp [rxField]) (by simp only [rxField]; omega),
    hword (typeField e) (by simp [typeField]) (by simp only [typeField]; omega), IoMessage.blank]

/-- The message of a block that is zero -/
lemma messageAt_zero (h : ∀ i < memBlockSize, m (e + i) = 0) : messageAt m e = IoMessage.blank := by
  rw [← messageAt_fill (m := m) (e := e)]
  apply messageAt_congr
  intro x hx hx'
  obtain ⟨i, rfl⟩ := Nat.exists_eq_add_of_le hx
  exact (h i (by omega)).trans (fill_self hx hx').symm

end Messages

end RtxKernel
